import VpnControl.Awg.Config
import VpnControl.Lib.JsonRoundTrip
import VpnControl.Lib.SortedMap
import Mathlib.Data.List.Lex
import Mathlib.Data.Char

namespace VpnControl.Awg
open Strings Json SortedMap

/-- A Go map with text keys, as the list of its entries in key order. -/
abbrev GoMap := List (Text × Doc)

structure ClientRecord where
  clientID : Text := []
  userData : GoMap := []

/-- A slice of records; `none` is Go's nil slice. -/
abbrev ClientsTable := Option (List ClientRecord)

def ClientsTable.records (t : ClientsTable) : List ClientRecord := t.getD []

def ClientsTable.ids (t : ClientsTable) : List Text := t.records.map (·.clientID)

/-- How numbers pass through a `float64`: `round` gives the text that the value of a
literal is printed as, or nothing when it is out of range. -/
structure FloatFormat where
  round : Text → Option Text
  number : ∀ {l r}, round l = some r → Number r
  stable : ∀ {l r}, round l = some r → round r = some r

/-- The order in which `range` visits the entries of a map. -/
structure MapOrder where
  order : List ClientRecord → List ClientRecord
  perm : ∀ l, (order l).Perm l

section Decode
variable (fmt : FloatFormat)

mutual
/-- `json.Unmarshal` into an `any`. -/
def decodeAny : Doc → Option Doc
  | .null => some .null
  | .bool b => some (.bool b)
  | .num literal => (fmt.round literal).map .num
  | .str s => some (.str s)
  | .arr xs => (decodeElems xs).map .arr
  | .obj ms => (decodeMembers ms).map fun es => .obj (insertAll [] es)

def decodeElems : List Doc → Option (List Doc)
  | [] => some []
  | x :: xs => do
    let y ← decodeAny x
    let ys ← decodeElems xs
    some (y :: ys)

def decodeMembers : List (Text × Doc) → Option (List (Text × Doc))
  | [] => some []
  | (k, x) :: ms => do
    let y ← decodeAny x
    let es ← decodeMembers ms
    some ((k, y) :: es)
end

/-- One member of a record's object; keys are compared without regard to case. -/
def decodeField (r : ClientRecord) (m : Text × Doc) : Option ClientRecord :=
  -- encoding/json matches the names of members up to case
  if equalFold m.1 (lit "clientId") then
    match m.2 with
    | .str s => some { r with clientID := s }
    -- a null leaves the field as it is
    | .null => some r
    | _ => none
  else if equalFold m.1 (lit "userData") then
    match m.2 with
    | .null => some { r with userData := [] }
    | .obj ms => (decodeMembers fmt ms).map fun es => { r with userData := insertAll r.userData es }
    | _ => none
  else some r

def decodeFields (r : ClientRecord) : List (Text × Doc) → Option ClientRecord
  | [] => some r
  | m :: ms => (decodeField fmt r m).bind fun r' => decodeFields r' ms

def decodeRecord : Doc → Option ClientRecord
  | .null => some {}
  | .obj ms => decodeFields fmt {} ms
  | _ => none

def decodeRecords : List Doc → Option (List ClientRecord)
  | [] => some []
  | x :: xs => do
    let r ← decodeRecord fmt x
    let rs ← decodeRecords xs
    some (r :: rs)

/-- `json.Unmarshal` into a `ClientsTable`. -/
def decodeTable : Doc → Option ClientsTable
  | .null => some none
  | .arr xs => (decodeRecords fmt xs).map some
  | _ => none

def decodeLegacyEntry (m : Text × Doc) : Option (Text × GoMap) :=
  match m.2 with
  | .null => some (m.1, [])
  | .obj ms => (decodeMembers fmt ms).map fun es => (m.1, insertAll [] es)
  | _ => none

def decodeLegacyEntries : List (Text × Doc) → Option (List (Text × GoMap))
  | [] => some []
  | m :: ms => do
    let e ← decodeLegacyEntry fmt m
    let es ← decodeLegacyEntries ms
    some (e :: es)

/-- `json.Unmarshal` into a map of maps. -/
def decodeLegacy : Doc → Option (List (Text × GoMap))
  | .null => some []
  | .obj ms => (decodeLegacyEntries fmt ms).map (insertAll [])
  | _ => none

inductive TableError where
  | unmarshal (input : Text)
  | marshal (output : Text)
  deriving DecidableEq, Repr

/-- What a text is laid out with stops where what checks it does. -/
def TableError.message (go : GoTexts) : TableError → Text
  | unmarshal input => lit "parse clientsTable: " ++ go.unmarshal input
  | marshal output => go.unmarshal output

def parseClientsTable (iter : MapOrder) (input : Text) : Except TableError ClientsTable :=
  if skip input = [] then .ok (some [])
  else
    match Json.parse input with
    | none => .error (.unmarshal input)
    | some j =>
      match decodeTable fmt j with
      | some table => .ok table
      -- the old form of the table, an object by client id
      | none =>
        match decodeLegacy fmt j with
        | none => .error (.unmarshal input)
        | some [] => .ok none
        -- Go ranges over a map in any order
        | some legacy => .ok (some (iter.order (legacy.map fun e => ⟨e.1, e.2⟩)))

end Decode

def recordDoc (r : ClientRecord) : Doc :=
  .obj ((lit "clientId", .str r.clientID) ::
    if r.userData = [] then [] else [(lit "userData", .obj r.userData)])

def tableDoc : ClientsTable → Doc
  | none => .null
  | some rs => .arr (rs.map recordDoc)

/-- `json.MarshalIndent` with four blanks, of the text that `json.Marshal` makes. -/
def renderClientsTable (t : ClientsTable) : Except TableError Text :=
  match Json.printNested ⟨some 4, true⟩ (tableDoc t) with
  | some text => .ok (text ++ ['\n'])
  | none => .error (.marshal (Json.print ⟨none, true⟩ 0 (tableDoc t)))

/-- The new client data of a record; the creation date stays as it is once there is one. -/
def updateUserData (userData : GoMap) (name allowedIP creationDate : Text) : GoMap :=
  let named := SortedMap.insert (lit "clientName") (.str name) userData
  let routed :=
    if allowedIP = [] then named else SortedMap.insert (lit "allowedIps") (.str allowedIP) named
  if (lookup routed (lit "creationDate")).isSome then routed
  else SortedMap.insert (lit "creationDate") (.str creationDate) routed

def addOrUpdateRecords (publicKey name allowedIP creationDate : Text) :
    List ClientRecord → List ClientRecord
  | [] => [⟨publicKey, updateUserData [] name allowedIP creationDate⟩]
  | r :: rs =>
    if r.clientID = publicKey then
      { r with userData := updateUserData r.userData name allowedIP creationDate } :: rs
    else r :: addOrUpdateRecords publicKey name allowedIP creationDate rs

namespace ClientsTable

def addOrUpdate (t : ClientsTable) (publicKey name allowedIP creationDate : Text) : ClientsTable :=
  some (addOrUpdateRecords publicKey name allowedIP creationDate t.records)

/-- The table without the records of a key, and whether there were any. -/
def remove (t : ClientsTable) (publicKey : Text) : ClientsTable × Bool :=
  (t.map fun rs => rs.filter (·.clientID ≠ publicKey), t.records.any (·.clientID = publicKey))

def byPublicKey (t : ClientsTable) (publicKey : Text) : Option ClientRecord :=
  t.records.find? (·.clientID = publicKey)

end ClientsTable
end VpnControl.Awg
