import VpnControl.Backend.Urllib
import VpnControl.Lib.Table

namespace VpnControl.Backend.DatabaseUrl
open Strings Trim Urllib

/-- The variables of the environment that the URL is built from. -/
structure Env where
  databaseUrl : Option Text := none
  dbSslmode : Option Text := none
  dbHost : Option Text := none
  dbName : Option Text := none
  dbUser : Option Text := none
  dbPassword : Option Text := none
  dbPort : Option Text := none

/-- A dictionary of texts in the order of its keys. -/
abbrev Dict := Table (Prod.fst : Text × Text → Text)

def dict (pairs : List (Text × Text)) : Dict := pairs.foldl Table.put {}

def setdefault (d : Dict) (name value : Text) : Dict :=
  if (d.get name).isSome then d else d.put (name, value)

/-- `x or default` for a text that may be missing. -/
def orDefault (x : Option Text) (default : Text) : Text :=
  match x with
  | none | some [] => default
  | some value => value

/-- The prefixes that are rewritten. -/
def rewritten : List Text := [lit "postgresql", lit "postgres", lit "postgresql+asyncpg"]

def psycopg : Text := lit "postgresql+psycopg"

def normalizeDatabaseUrl (value : Option Text) : Option Text :=
  match value with
  | none => none
  | some value =>
    let value := strip value
    if value = [] then none
    else if lit "postgresql://" <+: value then
      some (lit "postgresql+psycopg://" ++ trimPrefix (lit "postgresql://") value)
    else if lit "postgres://" <+: value then
      some (lit "postgresql+psycopg://" ++ trimPrefix (lit "postgres://") value)
    else if lit "postgresql+asyncpg://" <+: value then
      some (lit "postgresql+psycopg://" ++ trimPrefix (lit "postgresql+asyncpg://") value)
    else some value

inductive ValueError where
  | urlsplit
  | port (text : Text)
  | missing (names : List Text)
  deriving DecidableEq, Repr

def given (x : Option Text) : Bool := x.any (· ≠ [])

section Build
variable (checkNetloc : Text → Bool) (int : Text → Option Int)

def withSslmode (databaseUrl sslmode : Text) : Except ValueError Text :=
  match urlsplit checkNetloc databaseUrl with
  | none => .error .urlsplit
  | some parts =>
    let query := setdefault (dict (parseQsl parts.query)) (lit "sslmode") sslmode
    .ok (urlunsplit { parts with query := urlencode query.values })

/-- The URL from its parts in the environment; `int` is `int` of a text. -/
def urlFromParts (env : Env) : Except ValueError (Option Text) :=
  if !given env.dbHost && !given env.dbName && !given env.dbUser && !given env.dbPassword then
    .ok none
  else
    let missing := [(lit "DB_HOST", env.dbHost), (lit "DB_NAME", env.dbName),
      (lit "DB_USER", env.dbUser), (lit "DB_PASSWORD", env.dbPassword)].filter (!given ·.2)
    if missing ≠ [] then .error (.missing (missing.map (·.1)))
    else
      let port := orDefault env.dbPort (lit "5432")
      match int port with
      | none => .error (.port port)
      | some port =>
        .ok (some (lit "postgresql+psycopg://" ++ quote (env.dbUser.getD []) ++ ':' ::
          quote (env.dbPassword.getD []) ++ '@' :: env.dbHost.getD [] ++ ':' ::
          Awg.intLiteral port ++ '/' :: quote (env.dbName.getD []) ++ lit "?sslmode=" ++
          quote (orDefault env.dbSslmode (lit "require"))))

def buildDatabaseUrl (env : Env) : Except ValueError (Option Text) :=
  match normalizeDatabaseUrl env.databaseUrl with
  | some directUrl =>
    (withSslmode checkNetloc directUrl (orDefault env.dbSslmode (lit "require"))).map some
  | none => urlFromParts int env

end Build

/-- The text of an error; those of `urlsplit` and `int` are Python's own. -/
def ValueError.message (urlsplitText : Text) (intText : Text → Text) : ValueError → Text
  | urlsplit => urlsplitText
  | port text => intText text
  | missing names => lit "Для подключения к БД не хватает: " ++ join names (lit ", ")

/-! ### Dictionaries -/

theorem putValues_new {p : Text × Text} {xs : List (Text × Text)} (h : p.1 ∉ xs.map Prod.fst) :
    Table.putValues Prod.fst p xs = xs ++ [p] := by
  induction xs with
  | nil => rfl
  | cons x xs ih =>
    rw [List.map_cons, List.mem_cons, not_or] at h
    rw [Table.putValues, if_neg (Ne.symm h.1), ih h.2, List.cons_append]

theorem values_foldl_put {pairs : List (Text × Text)} {d : Dict}
    (h : ((d.values ++ pairs).map Prod.fst).Nodup) :
    (pairs.foldl Table.put d).values = d.values ++ pairs := by
  induction pairs generalizing d with
  | nil => simp
  | cons p pairs ih =>
    have hnew : p.1 ∉ d.values.map Prod.fst := by
      intro hmem
      rw [List.map_append, List.nodup_append] at h
      exact h.2.2 _ hmem _ List.mem_cons_self rfl
    have hput : (d.put p).values = d.values ++ [p] := putValues_new hnew
    rw [List.foldl_cons, ih, hput, List.append_assoc, List.singleton_append]
    rwa [hput, List.append_assoc, List.singleton_append]

/-- Pairs with different names are the entries of their dictionary. -/
theorem values_dict {pairs : List (Text × Text)} (h : (pairs.map Prod.fst).Nodup) :
    (dict pairs).values = pairs :=
  values_foldl_put (d := {}) h

/-- A query with a pair for `name`, added at the end when there is none. -/
def withDefault (name value : Text) (query : List (Text × Text)) : List (Text × Text) :=
  if name ∈ query.map Prod.fst then query else query ++ [(name, value)]

theorem isSome_get_iff {d : Dict} {name : Text} :
    (d.get name).isSome = true ↔ name ∈ d.values.map Prod.fst := by
  rw [Option.isSome_iff_exists, List.mem_map]
  exact exists_congr fun p => Table.get_eq_some_iff

theorem values_setdefault (d : Dict) (name value : Text) :
    (setdefault d name value).values = withDefault name value d.values := by
  rw [setdefault, withDefault]
  by_cases h : (d.get name).isSome = true
  · rw [if_pos h, if_pos (isSome_get_iff.mp h)]
  · have hnew : name ∉ d.values.map Prod.fst := fun hmem => h (isSome_get_iff.mpr hmem)
    rw [if_neg h, if_neg hnew]
    exact putValues_new hnew

/-! ### The normalized prefix -/

section Normalize
variable {value v n : Text}

def pySpace (c : Char) : Bool := isSpace c || (28 ≤ c.toNat && c.toNat ≤ 31)

theorem schemeText_rewritten {scheme : Text} (h : scheme ∈ psycopg :: rewritten) :
    SchemeText scheme := by
  simp only [psycopg, rewritten, lit_eq, List.mem_cons, List.not_mem_nil, or_false] at h
  rcases h with rfl | rfl | rfl | rfl <;>
    exact ⟨by decide, List.all_eq_true.mp (by decide), by decide⟩

theorem psycopg_notMem : psycopg ∉ rewritten := by
  simp [psycopg, rewritten]

/-- A text is rewritten behind its scheme, or stays as it is. -/
inductive Rewrites (v : Text) : Text → Prop where
  | rewritten {scheme rest : Text} (h : scheme ∈ rewritten) (hv : v = scheme ++ lit "://" ++ rest) :
    Rewrites v (psycopg ++ lit "://" ++ rest)
  | kept (h : ∀ scheme ∈ rewritten, ¬ scheme ++ lit "://" <+: v) : Rewrites v v

theorem normalizeDatabaseUrl_rewrites (hne : strip value ≠ []) :
    ∃ n, normalizeDatabaseUrl (some value) = some n ∧ Rewrites (strip value) n := by
  have h1 : lit "postgresql://" = lit "postgresql" ++ lit "://" := by simp only [lit_eq]; rfl
  have h2 : lit "postgres://" = lit "postgres" ++ lit "://" := by simp only [lit_eq]; rfl
  have h3 : lit "postgresql+asyncpg://" = lit "postgresql+asyncpg" ++ lit "://" := by
    simp only [lit_eq]; rfl
  have h4 : lit "postgresql+psycopg://" = psycopg ++ lit "://" := by
    simp only [psycopg, lit_eq]; rfl
  have hrest {pre : Text} (h : pre <+: strip value) :
      strip value = pre ++ trimPrefix pre (strip value) := by
    obtain ⟨rest, hv⟩ := h
    rw [← hv, trimPrefix, if_pos (List.prefix_append _ _), List.drop_left]
  have hfirst : lit "postgresql" ∈ rewritten := by simp [rewritten]
  have hsecond : lit "postgres" ∈ rewritten := by simp [rewritten]
  have hthird : lit "postgresql+asyncpg" ∈ rewritten := by simp [rewritten]
  rw [normalizeDatabaseUrl]
  simp only [if_neg hne, h1, h2, h3, h4]
  split_ifs with hp1 hp2 hp3
  · exact ⟨_, rfl, .rewritten hfirst (hrest hp1)⟩
  · exact ⟨_, rfl, .rewritten hsecond (hrest hp2)⟩
  · exact ⟨_, rfl, .rewritten hthird (hrest hp3)⟩
  · refine ⟨_, rfl, .kept fun scheme hscheme => ?_⟩
    simp only [rewritten, List.mem_cons, List.not_mem_nil, or_false] at hscheme
    rcases hscheme with rfl | rfl | rfl
    · exact hp1
    · exact hp2
    · exact hp3

theorem scheme_slashes (scheme rest : Text) :
    scheme ++ lit "://" ++ rest = scheme ++ ':' :: ('/' :: '/' :: rest) := by
  rw [lit_eq, List.append_assoc]
  rfl

variable {checkNetloc : Text → Bool} {parts : SplitResult}

/-- The scheme of a URL that starts with one. -/
theorem scheme_of_starts {scheme rest : Text} (h : SchemeText scheme)
    (hsplit : urlsplit checkNetloc (scheme ++ lit "://" ++ rest) = some parts)
    (hne : parts.netloc ≠ []) : parts.scheme = scheme := by
  rw [scheme_slashes, urlsplit_scheme h] at hsplit
  exact (splitRest_spec hsplit hne).1

/-- The normalization changes the scheme at most, and does so exactly when the text starts with
a scheme to rewrite. -/
theorem urlsplit_rewrites (h : Rewrites v n) (hsplit : urlsplit checkNetloc v = some parts)
    (hne : parts.netloc ≠ []) :
    ∃ scheme, urlsplit checkNetloc n = some { parts with scheme } ∧
      (parts.scheme ∈ rewritten ∧ parts.scheme ++ lit "://" <+: v ∧ scheme = psycopg ∨
        (parts.scheme ∈ rewritten → ¬ parts.scheme ++ lit "://" <+: v) ∧ scheme = parts.scheme) := by
  cases h with
  | kept h => exact ⟨parts.scheme, hsplit, .inr ⟨h _, rfl⟩⟩
  | @rewritten scheme rest hscheme hv =>
    have htext := schemeText_rewritten (List.mem_cons_of_mem psycopg hscheme)
    have hparts : parts.scheme = scheme := scheme_of_starts htext (hv ▸ hsplit) hne
    refine ⟨psycopg, ?_, .inl ⟨hparts ▸ hscheme, ?_, rfl⟩⟩
    · rw [hv, scheme_slashes, urlsplit_scheme htext] at hsplit
      rw [scheme_slashes, urlsplit_scheme (schemeText_rewritten List.mem_cons_self),
        splitRest_scheme scheme, hsplit]
      rfl
    · rw [hv, hparts]
      exact List.prefix_append _ rest

/-- The last character stays, too. -/
theorem getLast?_rewrites (h : Rewrites v n) : n.getLast? = v.getLast? := by
  cases h with
  | kept h => rfl
  | rewritten hscheme hv =>
    rw [hv, scheme_slashes, scheme_slashes, List.getLast?_append, List.getLast?_append,
      List.getLast?_cons]
    rfl

end Normalize

/-! ### The result -/

section Result
variable {checkNetloc : Text → Bool} {int : Text → Option Int} {url mode : Text}
  {parts : SplitResult}

/-- The pairs in the query of the result. -/
def resultQuery (parts : SplitResult) (mode : Text) : List (Text × Text) :=
  (setdefault (dict (parseQsl parts.query)) (lit "sslmode") mode).values

/-- The parts of the result. -/
def resultParts (parts : SplitResult) (mode : Text) : SplitResult :=
  { parts with query := urlencode (resultQuery parts mode) }

theorem nodup_resultQuery : ((resultQuery parts mode).map Prod.fst).Nodup :=
  (setdefault (dict (parseQsl parts.query)) (lit "sslmode") mode).nodup

theorem sslmode_mem_withDefault (name value : Text) (query : List (Text × Text)) :
    name ∈ (withDefault name value query).map Prod.fst := by
  rw [withDefault]
  split
  · assumption
  · simp

theorem urlencode_resultQuery_ne : urlencode (resultQuery parts mode) ≠ [] := by
  intro h
  have hparse := parseQsl_urlencode (resultQuery parts mode)
  have hmem := sslmode_mem_withDefault (lit "sslmode") mode (dict (parseQsl parts.query)).values
  rw [← values_setdefault, ← resultQuery, ← hparse, h] at hmem
  cases hmem

theorem safe_urlencode {query : List (Text × Text)} :
    ∀ c ∈ urlencode query, unsafeChar c = false := by
  intro c hc
  rw [Bool.eq_false_iff]
  intro hunsafe
  simp only [unsafeChar, Bool.or_eq_true, beq_iff_eq] at hunsafe
  rcases hunsafe with (rfl | rfl) | rfl
  · exact notMem_urlencode (by decide) (by decide) hc
  · exact notMem_urlencode (by decide) (by decide) hc
  · exact notMem_urlencode (by decide) (by decide) hc

theorem resultParts_wellFormed (h : parts.WellFormed checkNetloc) :
    (resultParts parts mode).WellFormed checkNetloc :=
  h.withQuery (notMem_urlencode (by decide) (by decide)) safe_urlencode

theorem withSslmode_eq (hsplit : urlsplit checkNetloc url = some parts) :
    withSslmode checkNetloc url mode = .ok (urlunsplit (resultParts parts mode)) := by
  rw [withSslmode, hsplit, resultParts, resultQuery]

/-- The pairs of a result are already there: nothing is added a second time. -/
theorem resultParts_resultParts (mode' : Text) :
    resultParts (resultParts parts mode) mode' = resultParts parts mode := by
  have hvalues : resultQuery (resultParts parts mode) mode' = resultQuery parts mode := by
    have hmem := sslmode_mem_withDefault (lit "sslmode") mode (dict (parseQsl parts.query)).values
    rw [← values_setdefault, ← resultQuery] at hmem
    rw [resultQuery, values_setdefault, resultParts, parseQsl_urlencode,
      values_dict nodup_resultQuery, withDefault, if_pos hmem]
  rw [resultParts, hvalues, resultParts]

theorem pySpace_eq_false {c : Char} (h : 32 < c.toNat) (h' : c.toNat < 128) :
    pySpace c = false := by
  simp [pySpace, isSpace]
  omega

theorem head_result (hwell : parts.WellFormed checkNetloc) :
    ∀ c ∈ (urlunsplit parts).head?, pySpace c = false := by
  intro c hc
  rw [urlunsplit_eq hwell] at hc
  rcases hwell.scheme with hnil | hscheme
  · rw [if_pos hnil] at hc
    cases hc
    rfl
  · obtain ⟨d, scheme, hd⟩ : ∃ d scheme, parts.scheme = d :: scheme := by
      apply List.exists_cons_of_ne_nil
      intro hnil
      have := hscheme.head
      simp [hnil] at this
    have hplain := hscheme.chars d (by simp [hd])
    simp only [hd, List.cons_ne_nil, if_false, List.cons_append, List.head?_cons] at hc
    cases hc
    exact pySpace_eq_false (schemeChar_spec hplain).1.1 (lt_of_schemeChar hplain)

theorem plain_urlencode {query : List (Text × Text)} :
    ∀ c ∈ urlencode query, pySpace c = false := by
  intro c hc
  rw [Bool.eq_false_iff]
  intro hspace
  have hall : ∀ i : Fin 128, unreserved (Char.ofNat i) = true → pySpace (Char.ofNat i) = false := by
    decide +kernel
  have hun : unreserved c = false := by
    rw [Bool.eq_false_iff]
    intro hun
    have hplain : pySpace c = false := by
      simpa using hall ⟨c.toNat, lt_of_unreserved hun⟩ (by simpa using hun)
    simp [hplain] at hspace
  refine notMem_urlencode hun (fun hmark => ?_) hc
  simp only [List.mem_cons, List.not_mem_nil, or_false] at hmark
  rcases hmark with rfl | rfl | rfl | rfl <;> cases hspace

/-- A URL that ends with a character that is kept by `strip` has a fragment that does. -/
theorem getLast?_fragment (hsplit : urlsplit checkNetloc url = some parts)
    (hne : parts.netloc ≠ []) (hlast : ∀ c ∈ url.getLast?, pySpace c = false) :
    ∀ c ∈ parts.fragment.getLast?, pySpace c = false := by
  intro c hc
  obtain ⟨pre, hpre⟩ := fragment_suffix hsplit hne
  have hfilter : (url.filter fun c => !unsafeChar c).getLast? = some c := by
    rw [← hpre, List.getLast?_append, Option.mem_def.mp hc, Option.some_or]
  cases hurl : url.getLast? with
  | none =>
    rw [List.getLast?_eq_none_iff.mp hurl] at hfilter
    cases hfilter
  | some d =>
    obtain ⟨init, rfl⟩ := List.getLast?_eq_some_iff.mp hurl
    have hd := hlast d hurl
    have hsafe : unsafeChar d = false := by
      rw [Bool.eq_false_iff]
      intro hunsafe
      simp only [unsafeChar, Bool.or_eq_true, beq_iff_eq] at hunsafe
      rcases hunsafe with (rfl | rfl) | rfl <;> cases hd
    rw [List.filter_append, List.filter_cons_of_pos (by simp [hsafe]), List.filter_nil,
      List.getLast?_concat, Option.some.injEq] at hfilter
    exact hfilter ▸ hd

theorem last_result (hfragment : ∀ c ∈ parts.fragment.getLast?, pySpace c = false) :
    ∀ c ∈ (urlunsplit (resultParts parts mode)).getLast?, pySpace c = false := by
  intro c hc
  rw [urlunsplit, ← marked, ← marked, List.getLast?_append, List.getLast?_append, getLast?_marked,
    getLast?_marked] at hc
  cases hlast : parts.fragment.getLast? with
  | some d =>
    rw [show (resultParts parts mode).fragment = parts.fragment from rfl, hlast,
      Option.some_or] at hc
    exact hfragment c (hlast ▸ hc)
  | none =>
    obtain ⟨d, hd⟩ : ∃ d, (urlencode (resultQuery parts mode)).getLast? = some d := by
      rw [← Option.isSome_iff_exists, List.getLast?_isSome]
      exact urlencode_resultQuery_ne
    rw [show (resultParts parts mode).fragment = parts.fragment from rfl, hlast, Option.none_or,
      show (resultParts parts mode).query = urlencode (resultQuery parts mode) from rfl, hd,
      Option.some_or] at hc
    cases hc
    exact plain_urlencode _ (List.mem_of_getLast? hd)

/-- The result has no white space at its ends. -/
theorem strip_result (hsplit : urlsplit checkNetloc url = some parts) (hne : parts.netloc ≠ [])
    (hlast : ∀ c ∈ url.getLast?, pySpace c = false) :
    strip (urlunsplit (resultParts parts mode)) = urlunsplit (resultParts parts mode) :=
  trimmed_of_ends (head_result (resultParts_wellFormed (wellFormed_of_urlsplit hsplit hne)))
    (last_result (getLast?_fragment hsplit hne hlast))

theorem buildDatabaseUrl_direct (int : Text → Option Int) {env : Env} {value n : Text}
    (hvalue : env.databaseUrl = some value) (hn : normalizeDatabaseUrl (some value) = some n)
    (hsplit : urlsplit checkNetloc n = some parts) :
    buildDatabaseUrl checkNetloc int env = .ok (some (urlunsplit
      (resultParts parts (orDefault env.dbSslmode (lit "require"))))) := by
  rw [buildDatabaseUrl, hvalue, hn]
  simp only [withSslmode_eq hsplit]
  rfl

/-- The scheme that the result should have. -/
def normalScheme (scheme : Text) : Text := if scheme ∈ rewritten then psycopg else scheme

/-- The URL of an environment is made of the parts of the given one, except for the scheme
and a default of `sslmode`, and is not changed by being built once more. -/
def Normalizes (checkNetloc : Text → Bool) (int : Text → Option Int) (env : Env)
    (parts : SplitResult) : Prop :=
  ∃ url query, buildDatabaseUrl checkNetloc int env = .ok (some url) ∧
    urlsplit checkNetloc url = some { parts with scheme := normalScheme parts.scheme, query } ∧
    parseQsl query = withDefault (lit "sslmode") (orDefault env.dbSslmode (lit "require"))
      (parseQsl parts.query) ∧
    buildDatabaseUrl checkNetloc int { env with databaseUrl := some url } = .ok (some url)

theorem strip_ne_nil {value : Text} (hparts : urlsplit checkNetloc (strip value) = some parts)
    (hne : parts.netloc ≠ []) : strip value ≠ [] := by
  intro hnil
  rw [hnil] at hparts
  have hrest : splitRest checkNetloc [] [] = some parts := hparts
  obtain ⟨-, -, -, -, -, -, hmem, -⟩ := splitRest_spec hrest hne
  obtain ⟨c, netloc, hc⟩ := List.exists_cons_of_ne_nil hne
  cases hmem c (by simp [hc])

theorem getLast?_strip (value : Text) : ∀ c ∈ (strip value).getLast?, pySpace c = false := by
  intro c hc
  have htrimmed : Trimmed pySpace (strip value) := trimmed_trim _ value
  have hlast := List.rdropWhile_eq_self_iff.mp htrimmed.rdropWhile
  obtain ⟨init, hinit⟩ := List.getLast?_eq_some_iff.mp hc
  have hne : strip value ≠ [] := by simp [hinit]
  have hc' : (strip value).getLast hne = c := by simp [hinit]
  simpa [hc'] using hlast hne

theorem normalScheme_notMem (scheme : Text) : normalScheme scheme ∉ rewritten := by
  rw [normalScheme]
  split
  · exact psycopg_notMem
  · assumption

/-- A URL whose scheme is not rewritten is not changed by the normalization. -/
theorem normalizeDatabaseUrl_self (hsplit : urlsplit checkNetloc url = some parts)
    (hne : parts.netloc ≠ []) (hstrip : strip url = url) (hscheme : parts.scheme ∉ rewritten) :
    normalizeDatabaseUrl (some url) = some url := by
  obtain ⟨n, hn, hrewrites⟩ := normalizeDatabaseUrl_rewrites
    (strip_ne_nil (hstrip.symm ▸ hsplit) hne)
  rw [hstrip] at hrewrites
  cases hrewrites with
  | kept _ => exact hn
  | @rewritten scheme rest hmem hv =>
    have htext := schemeText_rewritten (List.mem_cons_of_mem psycopg hmem)
    exact absurd (scheme_of_starts htext (hv ▸ hsplit) hne ▸ hmem) hscheme

theorem nodup_of_withDefault {name value : Text} {query : List (Text × Text)}
    (h : ((withDefault name value query).map Prod.fst).Nodup) : (query.map Prod.fst).Nodup := by
  rw [withDefault] at h
  split at h
  · exact h
  · rw [List.map_append] at h
    exact (List.nodup_append.mp h).1

/-- The pairs of a query are kept exactly when no name is repeated, and the scheme is
normalized exactly when the text starts with it as it is written in the source. -/
theorem normalizes_iff {env : Env} {value : Text} (hvalue : env.databaseUrl = some value)
    (hparts : urlsplit checkNetloc (strip value) = some parts) (hne : parts.netloc ≠ []) :
    Normalizes checkNetloc int env parts ↔
      ((parseQsl parts.query).map Prod.fst).Nodup ∧
        (parts.scheme ∈ rewritten → parts.scheme ++ lit "://" <+: strip value) := by
  obtain ⟨n, hn, hrewrites⟩ := normalizeDatabaseUrl_rewrites (strip_ne_nil hparts hne)
  obtain ⟨scheme, hsplit, hscheme⟩ := urlsplit_rewrites hrewrites hparts hne
  -- the URL is taken apart, its query rebuilt with the sslmode, and put together again
  have hbuild := buildDatabaseUrl_direct int hvalue hn hsplit
  set mode := orDefault env.dbSslmode (lit "require") with hmode
  set result := resultParts { parts with scheme } mode with hresult
  have hwell : result.WellFormed checkNetloc :=
    resultParts_wellFormed (wellFormed_of_urlsplit hsplit hne)
  have hread := urlsplit_urlunsplit hwell
  have hpairs : parseQsl result.query = resultQuery parts mode := parseQsl_urlencode _
  constructor
  · rintro ⟨url, query, hurl, hurlParts, hquery, -⟩
    obtain rfl : urlunsplit result = url := by
      rw [hbuild] at hurl
      exact Option.some.inj (Except.ok.inj hurl)
    rw [hread, Option.some.injEq] at hurlParts
    have hschemes : scheme = normalScheme parts.scheme := congrArg SplitResult.scheme hurlParts
    have hqueries : result.query = query := congrArg SplitResult.query hurlParts
    -- the result has distinct query keys, so the given query had, and its scheme was rewritten
    refine ⟨?_, fun hmem => ?_⟩
    · rw [← hqueries, hpairs] at hquery
      exact nodup_of_withDefault (hquery ▸ nodup_resultQuery)
    · rcases hscheme with ⟨-, hstarts, -⟩ | ⟨-, rfl⟩
      · exact hstarts
      · exact absurd hmem (hschemes ▸ normalScheme_notMem _)
  · rintro ⟨hnodup, hstarts⟩
    have hschemes : scheme = normalScheme parts.scheme := by
      rcases hscheme with ⟨hmem, -, rfl⟩ | ⟨hnot, rfl⟩
      · rw [normalScheme, if_pos hmem]
      · rw [normalScheme, if_neg fun hmem => hnot hmem (hstarts hmem)]
    have hstrip : strip (urlunsplit result) = urlunsplit result :=
      strip_result hsplit hne (getLast?_rewrites hrewrites ▸ getLast?_strip value)
    have hkept : result.scheme ∉ rewritten := by
      rw [show result.scheme = normalScheme parts.scheme from hschemes]
      exact normalScheme_notMem parts.scheme
    -- a second normalization finds nothing to rewrite
    have hself := normalizeDatabaseUrl_self hread hne hstrip hkept
    refine ⟨urlunsplit result, result.query, hbuild, ?_, ?_, ?_⟩
    · rw [hread, hresult, resultParts, hschemes]
    · rw [hpairs, resultQuery, values_setdefault, values_dict hnodup]
    · rw [buildDatabaseUrl_direct int rfl hself hread, hresult, resultParts_resultParts]

end Result

namespace Sample

/-- A URL with a blank parameter and a fragment. -/
def oneHost : Env where
  databaseUrl := some (lit " postgres://u:p@h/db?application_name=&connect_timeout=5#f")

def oneHostParts : SplitResult :=
  ⟨lit "postgres", lit "u:p@h", lit "/db", lit "application_name=&connect_timeout=5", lit "f"⟩

end Sample

/-- The built-in checks accept a network location in ASCII without brackets. -/
theorem normalizes_oneHost :
    Normalizes (fun n => n.all isASCII && !n.contains '[' && !n.contains ']') (fun _ => none)
      Sample.oneHost Sample.oneHostParts := by
  have hsplit : urlsplit (fun n => n.all isASCII && !n.contains '[' && !n.contains ']')
      (strip (lit " postgres://u:p@h/db?application_name=&connect_timeout=5#f")) =
        some Sample.oneHostParts := by
    simp only [Sample.oneHostParts, lit_eq]
    decide
  have hnodup : ((parseQsl Sample.oneHostParts.query).map Prod.fst).Nodup := by
    simp only [Sample.oneHostParts, lit_eq]
    decide
  have hstarts : Sample.oneHostParts.scheme ++ lit "://" <+:
      strip (lit " postgres://u:p@h/db?application_name=&connect_timeout=5#f") := by
    simp only [Sample.oneHostParts, lit_eq]
    decide
  exact (normalizes_iff rfl hsplit (by simp [Sample.oneHostParts, lit_eq])).mpr
    ⟨hnodup, fun _ => hstarts⟩

namespace Sample

/-- A URL with two hosts. -/
def twoHosts : Env where
  databaseUrl := some (lit "postgresql://u:p@/db?host=a&host=b")

def twoHostsParts : SplitResult :=
  ⟨lit "postgresql", lit "u:p@", lit "/db", lit "host=a&host=b", []⟩

theorem urlsplit_twoHosts :
    urlsplit (fun _ => true) (strip (lit "postgresql://u:p@/db?host=a&host=b")) =
      some twoHostsParts := by
  simp only [twoHostsParts, lit_eq]
  decide

theorem build_twoHosts :
    buildDatabaseUrl (fun _ => true) (fun _ => none) twoHosts =
      .ok (some (lit "postgresql+psycopg://u:p@/db?host=b&sslmode=require")) := by
  have hsplit : urlsplit (fun _ => true) (lit "postgresql+psycopg://u:p@/db?host=a&host=b") =
      some ⟨lit "postgresql+psycopg", lit "u:p@", lit "/db", lit "host=a&host=b", []⟩ := by
    simp only [lit_eq]
    decide
  have hn : normalizeDatabaseUrl twoHosts.databaseUrl =
      some (lit "postgresql+psycopg://u:p@/db?host=a&host=b") := by
    simp only [normalizeDatabaseUrl, twoHosts, lit_eq]
    decide
  rw [buildDatabaseUrl_direct _ rfl hn hsplit]
  simp only [resultParts, resultQuery, urlunsplit, withNetloc, twoHosts, orDefault, lit_eq]
  decide

end Sample

/-- One of two hosts is lost. -/
theorem twoHosts_not_normalized :
    urlsplit (fun _ => true) (strip (lit "postgresql://u:p@/db?host=a&host=b")) =
        some Sample.twoHostsParts ∧
      buildDatabaseUrl (fun _ => true) (fun _ => none) Sample.twoHosts =
        .ok (some (lit "postgresql+psycopg://u:p@/db?host=b&sslmode=require")) ∧
      ¬ Normalizes (fun _ => true) (fun _ => none) Sample.twoHosts Sample.twoHostsParts := by
  refine ⟨Sample.urlsplit_twoHosts, Sample.build_twoHosts, ?_⟩
  rintro ⟨url, query, hurl, hparts, hquery, -⟩
  obtain rfl : lit "postgresql+psycopg://u:p@/db?host=b&sslmode=require" = url := by
    rw [Sample.build_twoHosts] at hurl
    exact Option.some.inj (Except.ok.inj hurl)
  have hread : urlsplit (fun _ => true)
      (lit "postgresql+psycopg://u:p@/db?host=b&sslmode=require") =
        some ⟨lit "postgresql+psycopg", lit "u:p@", lit "/db", lit "host=b&sslmode=require", []⟩ := by
    simp only [lit_eq]
    decide
  rw [hread, Option.some.injEq] at hparts
  obtain rfl : lit "host=b&sslmode=require" = query := congrArg SplitResult.query hparts
  have hlengths := congrArg List.length hquery
  simp only [Sample.twoHosts, Sample.twoHostsParts, withDefault, orDefault, lit_eq] at hlengths
  revert hlengths
  decide

end VpnControl.Backend.DatabaseUrl
