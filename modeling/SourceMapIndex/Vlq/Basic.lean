import SourceMapIndex.Base64

/-!
# Variable-length quantities

A segment of a mapping string is a row of integers, each written as a group of base64
digits. A digit carries five bits of its group's number, the lowest five first, and says in
its sixth bit whether another digit follows. The lowest bit of the number is the sign of the
integer, the other bits are its magnitude. A number has at most seven digits and stays below
`2 ^ 32`.

## Main definitions

- `Vlq.Fault` — why a text is not a row of integers
- `Vlq.Reader` — a text being read, integer by integer
- `Vlq.Reader.next` — the next integer, or the fault that ends the reading
- `Vlq.decode` — all the integers of a text
- `Vlq.Reader.foldl` — the integers of a text, passed on one by one

## Design notes

A group's number is assembled on the way back from its last digit, as `low + 32 * high`: no
shift and no mask is left in the definition, and the arithmetic is that of natural numbers.
-/

namespace SourceMapIndex

namespace Vlq

/-- Why a text is not a row of integers. -/
inductive Fault where
  /-- A character outside the base64 alphabet, with its offset in bytes. -/
  | invalidChar (char : Char) (offset : Nat)
  /-- The text ends where a group goes on. -/
  | unterminated
  /-- A group has too many digits, or its number does not fit in a word. -/
  | overflow
deriving DecidableEq

/-- A text that is being read from left to right. -/
structure Reader where
  /-- What is left of the text. -/
  rest : List Char
  /-- How many bytes of the text have been read. -/
  offset : Nat
deriving DecidableEq

/-- The most digits that a group may have. -/
def maxDigits : Nat := 7

/-- The number of the group that starts a text at `offset`, with what follows the group; the
group may have `room` digits. -/
def group (room offset : Nat) : List Char → Except Fault (Nat × Reader)
  | [] => .error .unterminated
  | c :: rest =>
    match Base64.value? c, room with
    | none, _ => .error (.invalidChar c offset)
    | some _, 0 => .error .overflow
    | some digit, room + 1 =>
      if digit < 32 then
        .ok (digit, ⟨rest, offset + 1⟩)
      else
        match group room (offset + 1) rest with
        | .error fault => .error fault
        | .ok (high, after) => .ok (digit - 32 + 32 * high, after)

/-- The integer of a group's number: the lowest bit is the sign, the other bits the
magnitude. -/
def signed (number : Nat) : Int :=
  if number % 2 = 1 then -((number / 2 : Nat) : Int) else ((number / 2 : Nat) : Int)

namespace Reader

/-- A text from its start. -/
def ofString (text : String) : Reader :=
  ⟨text.toList, 0⟩

/-- The integer at the start of what is left, with what follows it. -/
def integer (r : Reader) : Except Fault (Int × Reader) :=
  match group maxDigits r.offset r.rest with
  | .error fault => .error fault
  | .ok (number, after) =>
    if number < 4294967296 then .ok (signed number, after) else .error .overflow

/-- The next integer of a text, and the text after it. There is none at the end; a fault
ends the text. -/
def next (r : Reader) : Option (Except Fault Int) × Reader :=
  match r.rest with
  | [] => (none, r)
  | _ :: _ =>
    match r.integer with
    | .error fault => (some (.error fault), ⟨[], r.offset⟩)
    | .ok (value, after) => (some (.ok value), after)

end Reader

/-- A group takes at least one character. -/
theorem length_of_group {room offset : Nat} {text : List Char} {number : Nat} {after : Reader}
    (h : group room offset text = .ok (number, after)) : after.rest.length < text.length := by
  induction text generalizing room offset number after with
  | nil => simp [group] at h
  | cons c rest ih =>
    unfold group at h
    split at h
    · simp at h
    · simp at h
    · split at h
      · simp only [Except.ok.injEq, Prod.mk.injEq] at h
        simp [← h.2]
      · split at h
        · simp at h
        · rename_i hgroup
          simp only [Except.ok.injEq, Prod.mk.injEq] at h
          have := ih hgroup
          simp only [List.length_cons, ← h.2]
          omega

namespace Reader

/-- Reading an integer leaves a shorter text. -/
theorem length_of_next {r after : Reader} {item : Except Fault Int}
    (h : r.next = (some item, after)) : after.rest.length < r.rest.length := by
  unfold next at h
  split at h
  · simp at h
  · rename_i hrest
    split at h
    · simp only [Prod.mk.injEq] at h
      simp [← h.2, hrest]
    · rename_i value rest hint
      simp only [Prod.mk.injEq] at h
      rw [← h.2]
      unfold integer at hint
      split at hint
      · simp at hint
      · rename_i hgroup
        split at hint
        · simp only [Except.ok.injEq, Prod.mk.injEq] at hint
          rw [← hint.2]
          exact length_of_group hgroup
        · simp at hint

/-- All the integers of what is left. -/
def integers (r : Reader) : Except Fault (List Int) :=
  match _h : r.next with
  | (none, _) => .ok []
  | (some (.error fault), _) => .error fault
  | (some (.ok value), after) =>
    match after.integers with
    | .error fault => .error fault
    | .ok values => .ok (value :: values)
termination_by r.rest.length
decreasing_by exact length_of_next _h

/-- What a state becomes that every integer of what is left changes in its turn. -/
def foldl {σ : Type} (step : σ → Int → σ) (state : σ) (r : Reader) : Except Fault σ :=
  match _h : r.next with
  | (none, _) => .ok state
  | (some (.error fault), _) => .error fault
  | (some (.ok value), after) => after.foldl step (step state value)
termination_by r.rest.length
decreasing_by exact length_of_next _h

end Reader

/-- The integers of a text. -/
def decode (text : String) : Except Fault (List Int) :=
  (Reader.ofString text).integers

/-- The fault of the first group that is not well formed is the fault of the text. -/
example : decode "AAg!" = .error (.invalidChar '!' 3) := by cbv

/-- The number `1` is a negative zero. -/
example : decode "AB2H" = .ok [0, 0, 123] := by cbv

end Vlq

end SourceMapIndex
