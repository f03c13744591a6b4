import SourceMapIndex.Json.Stage
import SourceMapIndex.Word

/-!
# Reading typed values

Readers take a draft to a value of some type, or to the first fault that a reader from left
to right meets: in a draft of another kind the mismatch comes before everything inside it,
and a record reads its members in the order of the text and skips those that it does not
know.

## Main definitions

- `Draft.asBool`, `Draft.asWord`, `Draft.asString` — values without parts
- `Draft.asOptional`, `Draft.asList` — a value or null, and an array
- `Draft.skip` — a value that nobody wants
- `Slot`, `Draft.asRecord` — a record: an object with known keys, or the array of their
  values
- `Json.read`, `Json.readText` — a reader applied to a value and to a text
-/

namespace SourceMapIndex

namespace Json

/-- One of the places for values in a record of type `ρ`. -/
structure Slot (ρ : Type) where
  /-- The key of its member in an object. -/
  key : String
  /-- Whether it may not be left out. -/
  required : Bool
  /-- The record with the value that a draft spells. -/
  store : ρ → Draft → Except Fault ρ

namespace Draft

/-- The fault of a draft that is not of the wanted kind. -/
def mismatch : Draft → Fault
  | .flawed flaw => flaw.fault
  | _ => .mismatched

/-- A truth value. -/
def asBool : Draft → Except Fault Bool
  | .bool value => .ok value
  | draft => .error draft.mismatch

/-- A word: an integer in its range. -/
def asWord : Draft → Except Fault UInt32
  | .number (.int value) =>
    match Word.ofInt? value with
    | some word => .ok word
    | none => .error .mismatched
  | draft => .error draft.mismatch

/-- A string. -/
def asString : Draft → Except Fault String
  | .string value => .ok value
  | draft => .error draft.mismatch

/-- What `reader` reads, or nothing from null. -/
def asOptional {α : Type} (reader : Draft → Except Fault α) : Draft → Except Fault (Option α)
  | .null => .ok none
  | draft => (reader draft).map some

/-- An array of what `reader` reads. -/
def asList {α : Type} (reader : Draft → Except Fault α) : Draft → Except Fault (List α)
  | .array items ending => do
    let values ← items.mapM reader
    match ending with
    | none => return values
    | some fault => .error fault
  | draft => .error draft.mismatch

mutual

/-- Passes over a value of any kind; the result is the first fault that is in the way. -/
def skip : Draft → Except Fault Unit
  | .flawed ⟨_, some fault⟩ => .error fault
  | .array items ending => do
    skipItems items
    match ending with
    | none => return ()
    | some fault => .error fault
  | .object members ending => do
    skipMembers members
    match ending with
    | none => return ()
    | some fault => .error fault
  | _ => .ok ()

/-- Passes over values. -/
def skipItems : List Draft → Except Fault Unit
  | [] => .ok ()
  | item :: rest => do
    item.skip
    skipItems rest

/-- Passes over members. -/
def skipMembers : List (Except Flaw String × Draft) → Except Fault Unit
  | [] => .ok ()
  | (.error ⟨_, some fault⟩, _) :: _ => .error fault
  | (_, value) :: rest => do
    value.skip
    skipMembers rest

end

/-- The record whose slots are filled from the items of an array, in their order. An array
that ends early leaves the other slots as they are; it may not go on after the last one. -/
def readItems {ρ : Type} : (slots : List (Slot ρ)) → (items : List Draft) →
    (ending : Option Fault) → (record : ρ) → Except Fault ρ
  | [], [], none, record => .ok record
  | [], _ :: _, _, _ => .error .malformed
  | slots, [], none, record =>
    if slots.any (·.required) then .error .mismatched else .ok record
  | _, [], some fault, _ => .error fault
  | slot :: slots, item :: items, ending, record => do
    let record ← slot.store record item
    readItems slots items ending record

/-- The record whose slots are filled from the members of an object, in the order of the
text; `seen` holds the keys of the slots that have been read. -/
def readMembers {ρ : Type} (slots : List (Slot ρ)) (ending : Option Fault) :
    (seen : List String) → (members : List (Except Flaw String × Draft)) → (record : ρ) →
    Except Fault ρ
  | seen, [], record =>
    match ending with
    | some fault => .error fault
    | none =>
      if slots.any fun slot => slot.required && !seen.contains slot.key then
        .error .mismatched
      else
        .ok record
  | _, (.error flaw, _) :: _, _ => .error flaw.fault
  | seen, (.ok key, value) :: members, record =>
    match slots.find? (·.key == key) with
    | none => do
      value.skip
      readMembers slots ending seen members record
    | some slot =>
      if seen.contains key then
        .error .mismatched
      else do
        let record ← slot.store record value
        readMembers slots ending (key :: seen) members record

/-- A record: the object of its slots, or the array of their values. Slots that are left
out are as in `start`. -/
def asRecord {ρ : Type} (slots : List (Slot ρ)) (start : ρ) : Draft → Except Fault ρ
  | .array items ending => readItems slots items ending start
  | .object members ending => readMembers slots ending [] members start
  | draft => .error draft.mismatch

end Draft

/-- What `reader` reads from a value. A value is complete, so it can only be of the wrong
kind. -/
def read {α : Type} (reader : Draft → Except Fault α) (value : Json) : Except Fault α :=
  (reader (Draft.ofJson value)).mapError fun _ => .mismatched

/-- What `reader` reads from a text, after which only blanks may follow. -/
def readText {α : Type} (reader : Draft → Except Fault α) (text : String) : Except Fault α := do
  let (draft, trailing) := Draft.ofText text
  let value ← reader draft
  if trailing then .error .malformed else return value

end Json

end SourceMapIndex
