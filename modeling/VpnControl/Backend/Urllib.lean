import VpnControl.Backend.WireText
import Mathlib.Data.List.SplitBy

namespace VpnControl.Backend.Urllib
open Strings Trim PercentCoding

section Model

/-- How many bytes of a text that does not start with a character are replaced together. -/
def malformed : List UInt8 → Nat
  | b :: c :: rest =>
    let second (low high : UInt8) : Bool := low ≤ c && c ≤ high
    let continued : Bool := rest.head?.any fun d => 0x80 ≤ d && d ≤ 0xBF
    if b = 0xE0 then if second 0xA0 0xBF then 2 else 1
    else if b = 0xED then if second 0x80 0x9F then 2 else 1
    else if 0xE1 ≤ b && b ≤ 0xEF then if second 0x80 0xBF then 2 else 1
    else if b = 0xF0 then if second 0x90 0xBF then if continued then 3 else 2 else 1
    else if b = 0xF4 then if second 0x80 0x8F then if continued then 3 else 2 else 1
    else if 0xF1 ≤ b && b ≤ 0xF3 then if second 0x80 0xBF then if continued then 3 else 2 else 1
    else 1
  | _ => 1

/-- `decode("utf-8", "replace")`, with a bound on the number of characters. -/
def decodeUpTo : Nat → List UInt8 → Text
  | 0, _ => []
  | _ + 1, [] => []
  | n + 1, bytes =>
    match bytes.toByteArray.utf8DecodeChar? 0 with
    | some c => c :: decodeUpTo n (bytes.drop c.utf8Size)
    | none => '\uFFFD' :: decodeUpTo n (bytes.drop (malformed bytes))

def decodeReplace (bytes : List UInt8) : Text := decodeUpTo bytes.length bytes

/-- `unquote`: only the ASCII parts of a text are decoded. -/
def unquote (s : Text) : Text :=
  if '%' ∈ s then
    (s.splitBy fun a b => isASCII a == isASCII b).flatMap fun part =>
      if part.all isASCII then decodeReplace (decodeLenient (utf8 part)) else part
  else s

def unquotePlus (s : Text) : Text := unquote (s.map fun c => if c = '+' then ' ' else c)

/-- `quote_plus`: a blank becomes a plus sign. -/
def quotePlus (s : Text) : Text := s.flatMap fun c => if c = ' ' then ['+'] else quote [c]

/-- One pair as it stands in a query. -/
def encodePair (p : Text × Text) : Text := quotePlus p.1 ++ '=' :: quotePlus p.2

/-- `urlencode` of a list of pairs. -/
def urlencode (query : List (Text × Text)) : Text := join (query.map encodePair) ['&']

/-- The text before the first `c` and the text after it, if there is one. -/
def partition (c : Char) (s : Text) : Text × Text := (cut c s).getD (s, [])

def decodePair (nameValue : Text) : Text × Text :=
  let (name, value) := partition '=' nameValue
  (unquotePlus name, unquotePlus value)

/-- `parse_qsl` with `keep_blank_values`. -/
def parseQsl (qs : Text) : List (Text × Text) :=
  ((qs.splitOn '&').filter (· ≠ [])).map decodePair

structure SplitResult where
  scheme : Text
  netloc : Text
  path : Text
  query : Text
  fragment : Text
  deriving DecidableEq, Repr

/-- The characters that `urlsplit` removes from a URL. -/
def unsafeChar (c : Char) : Bool := c == '\t' || c == '\r' || c == '\n'

def schemeChar (c : Char) : Bool :=
  c.isAlpha || c.isDigit || c == '+' || c == '-' || c == '.'

/-- A text before the first colon is a scheme when it looks like one. -/
def splitScheme (url : Text) : Text × Text :=
  match cut ':' url with
  | some (scheme, rest) =>
    if scheme.head?.any Char.isAlpha && scheme.all schemeChar then (scheme.map lowerASCII, rest)
    else ([], url)
  | none => ([], url)

def netlocChar (c : Char) : Bool := c != '/' && c != '?' && c != '#'

def splitNetloc : Text → Text × Text
  | '/' :: '/' :: url => (url.takeWhile netlocChar, url.dropWhile netlocChar)
  | url => ([], url)

/-- The part of `urlsplit` behind the scheme; `checkNetloc` are its checks of a network location. -/
def splitRest (checkNetloc : Text → Bool) (scheme url : Text) : Option SplitResult :=
  let (netloc, url) := splitNetloc url
  if checkNetloc netloc then
    let (url, fragment) := partition '#' url
    let (path, query) := partition '?' url
    some ⟨scheme, netloc, path, query, fragment⟩
  else none

def urlsplit (checkNetloc : Text → Bool) (url : Text) : Option SplitResult :=
  let url := (url.dropWhile fun c => c.toNat ≤ 32).filter fun c => !unsafeChar c
  let (scheme, url) := splitScheme url
  splitRest checkNetloc scheme url

/-- `uses_netloc`, without the empty scheme. -/
def usesNetloc : List Text :=
  [lit "ftp", lit "http", lit "gopher", lit "nntp", lit "telnet", lit "imap", lit "wais",
    lit "file", lit "mms", lit "https", lit "shttp", lit "snews", lit "prospero", lit "rtsp",
    lit "rtsps", lit "rtspu", lit "rsync", lit "svn", lit "svn+ssh", lit "sftp", lit "nfs",
    lit "git", lit "git+ssh", lit "ws", lit "wss"]

/-- The path behind the network location. -/
def withNetloc (p : SplitResult) : Text :=
  if p.netloc ≠ [] ∨ p.scheme ∈ usesNetloc ∨ ['/', '/'] <+: p.path then
    let path := if p.path ≠ [] ∧ p.path.head? ≠ some '/' then '/' :: p.path else p.path
    '/' :: '/' :: (p.netloc ++ path)
  else p.path

def urlunsplit (p : SplitResult) : Text :=
  (if p.scheme = [] then [] else p.scheme ++ [':']) ++ withNetloc p ++
    (if p.query = [] then [] else '?' :: p.query) ++
    (if p.fragment = [] then [] else '#' :: p.fragment)

end Model

/-! ### Queries -/

section Query

theorem utf8_ne_nil (c : Char) (s : Text) : utf8 (c :: s) ≠ [] := by
  rw [utf8_cons]
  exact List.append_ne_nil_of_left_ne_nil (by simp [utf8]) _

theorem decodeUpTo_utf8 (s : Text) (n : Nat) (hn : s.length ≤ n) : decodeUpTo n (utf8 s) = s := by
  induction s generalizing n with
  | nil => cases n <;> rfl
  | cons c s ih =>
    cases n with
    | zero => simp at hn
    | succ n =>
      have hdecode : (utf8 (c :: s)).toByteArray.utf8DecodeChar? 0 = some c := by
        rw [utf8, List.flatMap_cons, List.toByteArray_append]
        exact ByteArray.utf8DecodeChar?_utf8EncodeChar_append
      have hdrop : (utf8 (c :: s)).drop c.utf8Size = utf8 s := by
        rw [utf8, List.flatMap_cons, ← String.length_utf8EncodeChar, List.drop_left, utf8]
      rw [decodeUpTo, hdecode]
      · simp only [hdrop, ih n (by simpa using hn)]
      · exact utf8_ne_nil c s

theorem length_le_utf8 (s : Text) : s.length ≤ (utf8 s).length := by
  induction s with
  | nil => simp
  | cons c s ih =>
    have hpos : 0 < (utf8 [c]).length := by simpa [utf8] using c.utf8Size_pos
    rw [utf8_cons, List.length_append, List.length_cons]
    omega

theorem decodeReplace_utf8 (s : Text) : decodeReplace (utf8 s) = s :=
  decodeUpTo_utf8 s _ (length_le_utf8 s)

/-- Without escapes there is nothing to decode. -/
theorem decodeLenient_eq_self {s : List UInt8} (h : 37 ∉ s) : decodeLenient s = s := by
  induction s with
  | nil => rfl
  | cons b s ih =>
    rw [List.mem_cons, not_or] at h
    rw [decodeLenient_cons_of_ne (Ne.symm h.1), ih h.2]

/-- A byte in ASCII comes from the character with this number. -/
theorem mem_of_mem_utf8 {s : Text} {d : Char} (hd : d.toNat < 128)
    (h : UInt8.ofNat d.toNat ∈ utf8 s) : d ∈ s := by
  obtain ⟨c, hc, hb⟩ := List.mem_flatMap.mp h
  have hnat : (UInt8.ofNat d.toNat).toNat = d.toNat := by
    simp
    omega
  have hdc : d.toNat = c.toNat := by
    by_cases hascii : c.toNat < 128
    · have hsingle : String.utf8EncodeChar c = [UInt8.ofNat c.toNat] := by
        have hle : c.val.toNat ≤ 127 := Nat.le_of_lt_succ hascii
        rw [String.utf8EncodeChar]
        exact if_pos hle
      rw [hsingle, List.mem_singleton] at hb
      have hnats := congrArg UInt8.toNat hb
      rw [hnat] at hnats
      simp at hnats
      omega
    · have := le_of_mem_utf8EncodeChar (by omega) hb
      omega
  rwa [Char.toNat_inj.mp hdc]

/-- A text in ASCII is decoded as a whole. -/
theorem unquote_ascii {s : Text} (hs : ∀ c ∈ s, isASCII c = true) :
    unquote s = decodeReplace (decodeLenient (utf8 s)) := by
  rw [unquote]
  split
  · rename_i h
    have hall : s.all isASCII = true := List.all_eq_true.mpr hs
    have hparts : s.splitBy (fun a b => isASCII a == isASCII b) = [s] := by
      apply List.splitBy_of_isChain (List.ne_nil_of_mem h)
      apply List.Pairwise.isChain
      apply List.pairwise_of_forall_mem_list
      intro a ha b hb
      simp [hs a ha, hs b hb]
    rw [hparts, List.flatMap_singleton, if_pos hall]
  · rename_i h
    have h37 : 37 ∉ utf8 s := fun hmem => h (mem_of_mem_utf8 (by decide) hmem)
    rw [decodeLenient_eq_self h37, decodeReplace_utf8]

theorem mem_quote {s : Text} {d : Char} (h : d ∈ quote s) : unreserved d = true ∨ d = '%' := by
  obtain ⟨c, -, hd⟩ := List.mem_flatMap.mp h
  split at hd
  · rename_i hc
    rw [List.mem_singleton.mp hd]
    exact .inl hc
  · obtain ⟨b, -, hd⟩ := List.mem_flatMap.mp hd
    rcases List.mem_cons.mp hd with rfl | hd
    · exact .inr rfl
    · have hall : ∀ i : Fin 256, (hexDigits (UInt8.ofNat i)).all unreserved = true := by
        decide +kernel
      have hb : (hexDigits b).all unreserved = true := by simpa using hall ⟨b.toNat, b.toNat_lt⟩
      exact .inl (List.all_eq_true.mp hb d hd)

theorem mem_quotePlus {s : Text} {d : Char} (h : d ∈ quotePlus s) :
    unreserved d = true ∨ d = '%' ∨ d = '+' := by
  obtain ⟨c, -, hd⟩ := List.mem_flatMap.mp h
  split at hd
  · exact .inr (.inr (List.mem_singleton.mp hd))
  · exact (mem_quote hd).imp_right .inl

/-- The bytes that `quote_plus` leaves, once the plus signs are blanks again. -/
def keptByte (b : UInt8) : Bool := unreservedByte b || b == 32

theorem utf8_blanks (c : Char) :
    utf8 ((quotePlus [c]).map fun d => if d = '+' then ' ' else d) = encode keptByte (utf8 [c]) := by
  by_cases hc : c = ' '
  · subst hc
    decide +kernel
  · have hplus : ∀ d ∈ quote [c], (if d = '+' then ' ' else d) = d := by
      intro d hd
      apply if_neg
      rintro rfl
      rcases mem_quote hd with h | h
      · revert h
        decide
      · revert h
        decide
    have hquote : quotePlus [c] = quote [c] := by simp [quotePlus, hc]
    have hkept : ∀ b ∈ utf8 [c], (if keptByte b then [b] else encodeByte b) =
        if unreservedByte b then [b] else encodeByte b := by
      intro b hb
      have hb : b ≠ 32 := by
        rintro rfl
        exact hc (List.mem_singleton.mp (mem_of_mem_utf8 (by decide) hb)).symm
      simp [keptByte, hb]
    rw [hquote, List.map_congr_left hplus, List.map_id', utf8_quote, encode, encode,
      List.flatMap_congr hkept]

theorem utf8_map_quotePlus (s : Text) :
    utf8 ((quotePlus s).map fun d => if d = '+' then ' ' else d) = encode keptByte (utf8 s) := by
  induction s with
  | nil => rfl
  | cons c s ih =>
    have hcons : quotePlus (c :: s) = quotePlus [c] ++ quotePlus s := by simp [quotePlus]
    rw [hcons, List.map_append, utf8_append, utf8_cons c s, encode_append, utf8_blanks, ih]

/-- What is quoted is read back. -/
theorem unquotePlus_quotePlus (s : Text) : unquotePlus (quotePlus s) = s := by
  have hascii : ∀ d ∈ (quotePlus s).map fun d => if d = '+' then ' ' else d, isASCII d = true := by
    intro d hd
    obtain ⟨c, hc, rfl⟩ := List.mem_map.mp hd
    split
    · rfl
    · rcases mem_quotePlus hc with h | rfl | rfl
      · exact decide_eq_true (lt_of_unreserved h)
      · rfl
      · rfl
  rw [unquotePlus, unquote_ascii hascii, utf8_map_quotePlus,
    decodeLenient_encode (by decide +kernel), decodeReplace_utf8]

theorem notMem_quotePlus {s : Text} {d : Char} (hd : unreserved d = false) (hpercent : d ≠ '%')
    (hplus : d ≠ '+') : d ∉ quotePlus s := by
  intro h
  rcases mem_quotePlus h with h | h | h
  · simp [h] at hd
  · exact hpercent h
  · exact hplus h

theorem notMem_encodePair {p : Text × Text} {d : Char} (hd : unreserved d = false)
    (hmarks : d ∉ ['%', '+', '=']) : d ∉ encodePair p := by
  simp only [List.mem_cons, List.not_mem_nil, or_false, not_or] at hmarks
  have hquoted (s : Text) : d ∉ quotePlus s := notMem_quotePlus hd hmarks.1 hmarks.2.1
  simp [encodePair, hquoted, hmarks.2.2]

theorem notMem_urlencode {query : List (Text × Text)} {d : Char} (hd : unreserved d = false)
    (hmarks : d ∉ ['%', '+', '=', '&']) : d ∉ urlencode query := by
  intro h
  have hpair (p : Text × Text) : d ∉ encodePair p :=
    notMem_encodePair hd fun h => hmarks (List.mem_append_left ['&'] h)
  induction query with
  | nil => simp [urlencode, join] at h
  | cons p query ih =>
    cases query with
    | nil =>
      rw [urlencode, join, List.map_singleton, List.intercalate_singleton] at h
      exact hpair p h
    | cons q query =>
      rw [urlencode, join, List.map_cons, List.map_cons, List.intercalate_cons_cons] at h
      simp only [List.mem_append, List.mem_singleton] at h
      rcases h with (h | rfl) | h
      · exact hpair p h
      · simp at hmarks
      · exact ih h

theorem decodePair_encodePair (p : Text × Text) : decodePair (encodePair p) = p := by
  have hname : '=' ∉ quotePlus p.1 := notMem_quotePlus (by decide) (by decide) (by decide)
  rw [decodePair, partition, encodePair, cut_append_cons hname]
  simp [unquotePlus_quotePlus]

theorem encodePair_ne_nil (p : Text × Text) : encodePair p ≠ [] := by
  simp [encodePair]

/-- A query is read back as the pairs it was made of. -/
theorem parseQsl_urlencode (query : List (Text × Text)) : parseQsl (urlencode query) = query := by
  cases query with
  | nil => rfl
  | cons p query =>
    have hsep : ∀ l ∈ (p :: query).map encodePair, '&' ∉ l := by
      intro l hl
      obtain ⟨q, -, rfl⟩ := List.mem_map.mp hl
      exact notMem_encodePair (by decide) (by decide)
    have hsplit : (urlencode (p :: query)).splitOn '&' = (p :: query).map encodePair :=
      List.splitOn_intercalate '&' hsep (by simp)
    have hkeep : ((p :: query).map encodePair).filter (· ≠ []) = (p :: query).map encodePair := by
      rw [List.filter_eq_self]
      intro l hl
      obtain ⟨q, -, rfl⟩ := List.mem_map.mp hl
      simp [encodePair_ne_nil]
    rw [parseQsl, hsplit, hkeep, List.map_map]
    exact (List.map_congr_left fun q _ => decodePair_encodePair q).trans (List.map_id _)

end Query

/-! ### Parts of a URL -/

section Parts
variable {checkNetloc : Text → Bool} {p : SplitResult} {scheme rest url : Text}

/-- A scheme as `urlsplit` returns it. -/
structure SchemeText (scheme : Text) : Prop where
  head : scheme.head?.any Char.isAlpha = true
  chars : ∀ c ∈ scheme, schemeChar c = true
  lower : scheme.map lowerASCII = scheme

/-- Parts with a network location as `urlsplit` returns them. -/
structure SplitResult.WellFormed (checkNetloc : Text → Bool) (p : SplitResult) : Prop where
  scheme : p.scheme = [] ∨ SchemeText p.scheme
  netloc_ne : p.netloc ≠ []
  netloc : ∀ c ∈ p.netloc, netlocChar c = true
  check : checkNetloc p.netloc = true
  path_head : ∀ c ∈ p.path.head?, c = '/'
  path : ∀ c ∈ p.path, c ≠ '?' ∧ c ≠ '#'
  query : '#' ∉ p.query
  safe : ∀ c ∈ p.netloc ++ p.path ++ p.query ++ p.fragment, unsafeChar c = false

theorem lt_of_schemeChar {c : Char} (h : schemeChar c = true) : c.toNat < 128 := by
  simp only [schemeChar, Bool.or_eq_true, beq_iff_eq] at h
  rcases h with (((h | h) | rfl) | rfl) | rfl
  · exact lt_of_le_of_lt (range_of_isAlphanum (by simp [Char.isAlphanum, h])).2 (by decide)
  · exact lt_of_le_of_lt (range_of_isAlphanum (by simp [Char.isAlphanum, h])).2 (by decide)
  · decide
  · decide
  · decide

theorem schemeChar_spec {c : Char} (h : schemeChar c = true) :
    (32 < c.toNat ∧ unsafeChar c = false ∧ c ≠ ':' ∧ c ≠ '/') ∧
      schemeChar (lowerASCII c) = true ∧ lowerASCII (lowerASCII c) = lowerASCII c ∧
        (c.isAlpha = true → (lowerASCII c).isAlpha = true) := by
  have hall : ∀ i : Fin 128, schemeChar (Char.ofNat i) = true →
      (32 < (Char.ofNat i).toNat ∧ unsafeChar (Char.ofNat i) = false ∧ Char.ofNat i ≠ ':' ∧
        Char.ofNat i ≠ '/') ∧ schemeChar (lowerASCII (Char.ofNat i)) = true ∧
        lowerASCII (lowerASCII (Char.ofNat i)) = lowerASCII (Char.ofNat i) ∧
        ((Char.ofNat i).isAlpha = true → (lowerASCII (Char.ofNat i)).isAlpha = true) := by
    decide +kernel
  simpa using hall ⟨c.toNat, lt_of_schemeChar h⟩ (by simpa using h)

theorem filter_safe {s : Text} (h : ∀ c ∈ s, unsafeChar c = false) :
    (s.filter fun c => !unsafeChar c) = s := by
  rw [List.filter_eq_self]
  intro c hc
  simp [h c hc]

theorem urlsplit_scheme (h : SchemeText scheme) :
    urlsplit checkNetloc (scheme ++ ':' :: rest) =
      splitRest checkNetloc scheme (rest.filter fun c => !unsafeChar c) := by
  have hsafe : ∀ c ∈ scheme, unsafeChar c = false := fun c hc => (schemeChar_spec (h.chars c hc)).1.2.1
  have hcolon : ':' ∉ scheme := fun hc => (schemeChar_spec (h.chars _ hc)).1.2.2.1 rfl
  have hstart : (scheme ++ ':' :: rest).dropWhile (fun c => c.toNat ≤ 32) = scheme ++ ':' :: rest := by
    cases scheme with
    | nil => exact absurd h.head (by simp)
    | cons c scheme =>
      have := (schemeChar_spec (h.chars c List.mem_cons_self)).1.1
      simp
      omega
  have hclean : ((scheme ++ ':' :: rest).filter fun c => !unsafeChar c) =
      scheme ++ ':' :: rest.filter fun c => !unsafeChar c := by
    rw [List.filter_append, filter_safe hsafe]
    rfl
  have hlooks : (scheme.head?.any Char.isAlpha && scheme.all schemeChar) = true := by
    rw [Bool.and_eq_true]
    exact ⟨h.head, List.all_eq_true.mpr h.chars⟩
  rw [urlsplit, hstart, hclean]
  simp only [splitScheme, cut_append_cons hcolon, hlooks, if_true, h.lower]

theorem urlsplit_slash :
    urlsplit checkNetloc ('/' :: rest) =
      splitRest checkNetloc [] ('/' :: rest.filter fun c => !unsafeChar c) := by
  have hclean : (('/' :: rest).filter fun c => !unsafeChar c) =
      '/' :: rest.filter fun c => !unsafeChar c := rfl
  have hstart : ('/' :: rest).dropWhile (fun c => c.toNat ≤ 32) = '/' :: rest := rfl
  have hscheme (s : Text) : splitScheme ('/' :: s) = ([], '/' :: s) := by
    rw [splitScheme]
    split
    · rename_i a b hcut
      obtain ⟨heq, -⟩ := cut_eq_some hcut
      cases a with
      | nil => simp at heq
      | cons c a =>
        obtain rfl : '/' = c := (List.cons.inj heq).1
        rfl
    · rfl
  rw [urlsplit, hstart, hclean]
  simp only [hscheme]

theorem partition_mark {c : Char} {a : Text} (ha : c ∉ a) (b : Text) :
    partition c (a ++ if b = [] then [] else c :: b) = (a, b) := by
  rw [partition]
  split
  · rename_i hb
    rw [List.append_nil, cut_eq_none ha, hb]
    rfl
  · rw [cut_append_cons ha]
    rfl

theorem partition_cases (c : Char) (s : Text) :
    c ∉ s ∧ partition c s = (s, []) ∨
      ∃ a b, s = a ++ c :: b ∧ c ∉ a ∧ partition c s = (a, b) := by
  by_cases hc : c ∈ s
  · obtain ⟨a, b, rfl, ha⟩ := List.eq_append_cons_of_mem hc
    exact .inr ⟨a, b, rfl, ha, by rw [partition, cut_append_cons ha]; rfl⟩
  · exact .inl ⟨hc, by rw [partition, cut_eq_none hc]; rfl⟩

theorem notMem_partition (c : Char) (s : Text) : c ∉ (partition c s).1 := by
  rcases partition_cases c s with ⟨hc, hs⟩ | ⟨a, b, -, ha, hs⟩
  · rw [hs]
    exact hc
  · rw [hs]
    exact ha

theorem partition_prefix (c : Char) (s : Text) : (partition c s).1 <+: s := by
  rcases partition_cases c s with ⟨-, hs⟩ | ⟨a, b, rfl, -, hs⟩
  · rw [hs]
  · rw [hs]
    exact List.prefix_append a _

theorem partition_suffix (c : Char) (s : Text) : (partition c s).2 <:+ s := by
  rcases partition_cases c s with ⟨-, hs⟩ | ⟨a, b, rfl, -, hs⟩
  · rw [hs]
    exact List.nil_suffix
  · rw [hs]
    exact (List.suffix_cons c b).trans (List.suffix_append a _)

theorem head_partition {c d : Char} {s : Text} (h : d ∈ (partition c s).1.head?) :
    d ∈ s.head? ∧ d ≠ c := by
  have hne : d ≠ c := by
    rintro rfl
    exact notMem_partition d s (List.mem_of_mem_head? h)
  obtain ⟨t, ht⟩ := partition_prefix c s
  refine ⟨?_, hne⟩
  rw [← ht, List.head?_append, Option.mem_def, Option.mem_def.mp h, Option.some_or]

theorem span_netloc {n r : Text} (hn : ∀ c ∈ n, netlocChar c = true)
    (hr : ∀ c ∈ r.head?, netlocChar c = false) :
    (n ++ r).takeWhile netlocChar = n ∧ (n ++ r).dropWhile netlocChar = r := by
  cases r with
  | nil => simpa using hn
  | cons d r =>
    have hd := hr d rfl
    rw [List.takeWhile_append_of_pos hn, List.dropWhile_append_of_pos hn]
    simp [hd]

/-- A mark and what is behind it, unless this is empty. -/
def marked (c : Char) (s : Text) : Text := if s = [] then [] else c :: s

theorem mem_marked {c d : Char} {s : Text} (h : d ∈ marked c s) : d = c ∨ d ∈ s := by
  rw [marked] at h
  split at h
  · simp at h
  · exact List.mem_cons.mp h

theorem head_marked {c d : Char} {s : Text} (h : d ∈ (marked c s).head?) : d = c := by
  rw [marked] at h
  split at h
  · simp at h
  · simpa using h.symm

@[simp] theorem getLast?_marked (c : Char) (s : Text) : (marked c s).getLast? = s.getLast? := by
  cases s with
  | nil => rfl
  | cons d s => rw [marked, if_neg (by simp), List.getLast?_cons_cons]

theorem head_append {P : Char → Prop} {s t : Text} (hs : ∀ c ∈ s.head?, P c)
    (ht : ∀ c ∈ t.head?, P c) : ∀ c ∈ (s ++ t).head?, P c := by
  cases s with
  | nil => exact ht
  | cons d s => exact hs

/-- The parts behind a scheme, put together and taken apart again. -/
theorem splitRest_parts (h : p.WellFormed checkNetloc) :
    splitRest checkNetloc p.scheme ('/' :: '/' :: (p.netloc ++
      (p.path ++ marked '?' p.query ++ marked '#' p.fragment))) = some p := by
  have hmark (c : Char) (s : Text) (hc : netlocChar c = false) :
      ∀ d ∈ (marked c s).head?, netlocChar d = false := by
    intro d hd
    rwa [head_marked hd]
  have hpath : ∀ d ∈ p.path.head?, netlocChar d = false := by
    intro d hd
    rw [h.path_head d hd]
    rfl
  have hhead := head_append (head_append hpath (hmark '?' p.query rfl)) (hmark '#' p.fragment rfl)
  have hhash : '#' ∉ p.path ++ marked '?' p.query := by
    intro hmem
    rcases List.mem_append.mp hmem with hmem | hmem
    · exact (h.path _ hmem).2 rfl
    · exact h.query ((mem_marked hmem).resolve_left (by decide))
  obtain ⟨htake, hdrop⟩ := span_netloc h.netloc hhead
  rw [splitRest]
  simp only [splitNetloc, htake, hdrop, h.check, if_true]
  have hfragment := partition_mark hhash p.fragment
  have hquery := partition_mark (fun hmem => (h.path _ hmem).1 rfl) p.query
  rw [← marked] at hfragment hquery
  simp only [hfragment, hquery]

theorem urlunsplit_eq (h : p.WellFormed checkNetloc) :
    urlunsplit p = (if p.scheme = [] then [] else p.scheme ++ [':']) ++ '/' :: '/' ::
      (p.netloc ++ (p.path ++ marked '?' p.query ++ marked '#' p.fragment)) := by
  have hpath : withNetloc p = '/' :: '/' :: (p.netloc ++ p.path) := by
    rw [withNetloc, if_pos (.inl h.netloc_ne)]
    have hhead : ¬(p.path ≠ [] ∧ p.path.head? ≠ some '/') := by
      rintro ⟨hne, hhead⟩
      obtain ⟨c, path, hc⟩ := List.exists_cons_of_ne_nil hne
      have := h.path_head c (by simp [hc])
      simp [hc, this] at hhead
    simp only [if_neg hhead]
  rw [urlunsplit, hpath, ← marked, ← marked]
  simp

theorem safe_parts (h : p.WellFormed checkNetloc) :
    ∀ c ∈ p.netloc ++ (p.path ++ marked '?' p.query ++ marked '#' p.fragment),
      unsafeChar c = false := by
  intro c hc
  simp only [List.mem_append] at hc
  have hsafe := h.safe c
  simp only [List.mem_append] at hsafe
  rcases hc with hc | (hc | hc) | hc
  · exact hsafe (.inl (.inl (.inl hc)))
  · exact hsafe (.inl (.inl (.inr hc)))
  · rcases mem_marked hc with rfl | hc
    · rfl
    · exact hsafe (.inl (.inr hc))
  · rcases mem_marked hc with rfl | hc
    · rfl
    · exact hsafe (.inr hc)

/-- Parts are read back from the URL they are put together to. -/
theorem urlsplit_urlunsplit (h : p.WellFormed checkNetloc) :
    urlsplit checkNetloc (urlunsplit p) = some p := by
  have hsafe := safe_parts h
  have hparts := splitRest_parts h
  rw [urlunsplit_eq h]
  rcases h.scheme with hnil | hscheme
  · rw [if_pos hnil, List.nil_append, urlsplit_slash, filter_safe, ← hnil, hparts]
    intro c hc
    rcases List.mem_cons.mp hc with rfl | hc
    · rfl
    · exact hsafe c hc
  · have hne : p.scheme ≠ [] := by
      intro hnil
      have := hscheme.head
      simp [hnil] at this
    rw [if_neg hne, List.append_assoc, List.singleton_append, urlsplit_scheme hscheme,
      filter_safe, hparts]
    intro c hc
    rcases List.mem_cons.mp hc with rfl | hc
    · rfl
    · rcases List.mem_cons.mp hc with rfl | hc
      · rfl
      · exact hsafe c hc

theorem splitNetloc_cases (url : Text) :
    (splitNetloc url).1 = [] ∨ ∃ u, url = '/' :: '/' :: u ∧
      splitNetloc url = (u.takeWhile netlocChar, u.dropWhile netlocChar) := by
  rw [splitNetloc.eq_def]
  split
  · rename_i u
    exact .inr ⟨u, rfl, rfl⟩
  · exact .inl rfl

theorem head_dropWhile {d : Char} {u : Text} (h : d ∈ (u.dropWhile netlocChar).head?) :
    netlocChar d = false := by
  have hnot := List.head?_dropWhile_not netlocChar u
  rw [Option.mem_def.mp h] at hnot
  exact hnot

/-- The parts come from the text behind the scheme. -/
theorem splitRest_spec (h : splitRest checkNetloc scheme rest = some p) (hne : p.netloc ≠ []) :
    p.scheme = scheme ∧ (∀ c ∈ p.netloc, netlocChar c = true) ∧ checkNetloc p.netloc = true ∧
      (∀ c ∈ p.path.head?, c = '/') ∧ (∀ c ∈ p.path, c ≠ '?' ∧ c ≠ '#') ∧ '#' ∉ p.query ∧
      (∀ c ∈ p.netloc ++ p.path ++ p.query ++ p.fragment, c ∈ rest) ∧ p.fragment <:+ rest := by
  rw [splitRest] at h
  simp only [Option.ite_none_right_eq_some, Option.some.injEq] at h
  obtain ⟨hcheck, rfl⟩ := h
  obtain ⟨u, rfl, hsplit⟩ := (splitNetloc_cases rest).resolve_left hne
  simp only [hsplit, true_and] at hcheck ⊢
  have hnetloc : u.takeWhile netlocChar <+: u := List.takeWhile_prefix _
  have hbehind : u.dropWhile netlocChar <:+ u := List.dropWhile_suffix _
  have hurl := partition_prefix '#' (u.dropWhile netlocChar)
  have hfragment := (partition_suffix '#' (u.dropWhile netlocChar)).trans hbehind
  have hpath := partition_prefix '?' (partition '#' (u.dropWhile netlocChar)).1
  have hquery := partition_suffix '?' (partition '#' (u.dropWhile netlocChar)).1
  have hhash := notMem_partition '#' (u.dropWhile netlocChar)
  refine ⟨fun c hc => List.mem_takeWhile_imp hc, hcheck, fun c hc => ?_, fun c hc => ⟨?_, ?_⟩,
    fun hc => hhash (hquery.subset hc), fun c hc => ?_, hfragment.trans ?_⟩
  · obtain ⟨hc, hquestion⟩ := head_partition hc
    obtain ⟨hc, hne⟩ := head_partition hc
    have hmark := head_dropWhile hc
    simp only [netlocChar, Bool.and_eq_false_iff, bne_eq_false_iff_eq] at hmark
    exact hmark.elim (fun h => h.resolve_right hquestion) fun h => absurd h hne
  · rintro rfl
    exact notMem_partition _ _ hc
  · rintro rfl
    exact hhash (hpath.subset hc)
  · apply List.mem_cons_of_mem
    apply List.mem_cons_of_mem
    simp only [List.mem_append] at hc
    rcases hc with ((hc | hc) | hc) | hc
    · exact hnetloc.subset hc
    · exact hbehind.subset (hurl.subset (hpath.subset hc))
    · exact hbehind.subset (hurl.subset (hquery.subset hc))
    · exact hfragment.subset hc
  · exact (List.suffix_cons '/' u).trans (List.suffix_cons '/' _)

theorem splitScheme_spec (url : Text) :
    ((splitScheme url).1 = [] ∨ SchemeText (splitScheme url).1) ∧ (splitScheme url).2 <:+ url := by
  rw [splitScheme]
  split
  · rename_i scheme rest hcut
    obtain ⟨hurl, -⟩ := cut_eq_some hcut
    split
    · rename_i hlooks
      rw [Bool.and_eq_true, List.all_eq_true] at hlooks
      have hspec (c : Char) (hc : c ∈ scheme) := schemeChar_spec (hlooks.2 c hc)
      refine ⟨.inr ⟨?_, ?_, ?_⟩, ?_⟩
      · cases hhead : scheme.head? with
        | none => simp [hhead] at hlooks
        | some c =>
          have halpha : c.isAlpha = true := by simpa [hhead] using hlooks.1
          simpa [List.head?_map, hhead] using
            (hspec c (List.mem_of_mem_head? hhead)).2.2.2 halpha
      · intro d hd
        obtain ⟨c, hc, rfl⟩ := List.mem_map.mp hd
        exact (hspec c hc).2.1
      · rw [List.map_map]
        exact List.map_congr_left fun c hc => (hspec c hc).2.2.1
      · rw [hurl]
        exact (List.suffix_cons ':' rest).trans (List.suffix_append scheme _)
    · exact ⟨.inl rfl, List.suffix_refl _⟩
  · exact ⟨.inl rfl, List.suffix_refl _⟩

/-- What `urlsplit` returns is well formed. -/
theorem wellFormed_of_urlsplit (h : urlsplit checkNetloc url = some p) (hne : p.netloc ≠ []) :
    p.WellFormed checkNetloc := by
  rw [urlsplit] at h
  obtain ⟨hscheme, hnetloc, hcheck, hhead, hpath, hquery, hmem, -⟩ := splitRest_spec h hne
  obtain ⟨hschemeText, hsuffix⟩ :=
    splitScheme_spec ((url.dropWhile fun c => c.toNat ≤ 32).filter fun c => !unsafeChar c)
  refine ⟨hscheme ▸ hschemeText, hne, hnetloc, hcheck, hhead, hpath, hquery, fun c hc => ?_⟩
  simpa using (List.mem_filter.mp (hsuffix.subset (hmem c hc))).2

/-- The fragment is the end of the URL. -/
theorem fragment_suffix (h : urlsplit checkNetloc url = some p) (hne : p.netloc ≠ []) :
    p.fragment <:+ url.filter fun c => !unsafeChar c := by
  rw [urlsplit] at h
  obtain ⟨-, -, -, -, -, -, -, hfragment⟩ := splitRest_spec h hne
  exact hfragment.trans ((splitScheme_spec _).2.trans ((List.dropWhile_suffix _).filter _))

theorem SplitResult.WellFormed.withQuery {query : Text} (h : p.WellFormed checkNetloc)
    (hquery : '#' ∉ query) (hsafe : ∀ c ∈ query, unsafeChar c = false) :
    { p with query }.WellFormed checkNetloc := by
  refine { h with query := hquery, safe := fun c hc => ?_ }
  simp only [List.mem_append] at hc
  have hparts := h.safe c
  simp only [List.mem_append] at hparts
  rcases hc with ((hc | hc) | hc) | hc
  · exact hparts (.inl (.inl (.inl hc)))
  · exact hparts (.inl (.inl (.inr hc)))
  · exact hsafe c hc
  · exact hparts (.inr hc)

theorem splitRest_scheme (scheme : Text) {scheme' : Text} :
    splitRest checkNetloc scheme' rest =
      (splitRest checkNetloc scheme rest).map fun p => { p with scheme := scheme' } := by
  rw [splitRest, splitRest]
  simp only
  split
  · rfl
  · rfl

end Parts

end VpnControl.Backend.Urllib
