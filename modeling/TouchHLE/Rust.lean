import Mathlib.Data.BitVec

namespace TouchHLE

theorem except_bind_eq_ok {ε α β : Type} {x : Except ε α} {f : α → Except ε β} {b : β} :
    x >>= f = .ok b ↔ ∃ a, x = .ok a ∧ f a = .ok b := by
  cases x <;> simp [bind, Except.bind]

theorem except_bind_eq_error {ε α β : Type} {x : Except ε α} {f : α → Except ε β} {e : ε} :
    x >>= f = .error e ↔ x = .error e ∨ ∃ a, x = .ok a ∧ f a = .error e := by
  cases x <;> simp [bind, Except.bind]

namespace Rust

def assert (b : Bool) (msg : String) : Except String Unit :=
  if b then .ok () else .error msg

def unwrap {α : Type} : Option α → Except String α
  | some a => .ok a
  | none => .error "called `Option::unwrap()` on a `None` value"

def index {α : Type} (l : List α) (i : Nat) : Except String α :=
  match l[i]? with
  | some a => .ok a
  | none => .error ("index out of bounds: the len is " ++ toString l.length ++ " but the index is " ++
      toString i)

/-- The message of a panic, if there was one. -/
def panicMessage {α : Type} : Except String α → Option String
  | .error e => some e
  | .ok _ => none

/-- `{:#x}`. -/
def hex (v : BitVec 32) : String := "0x" ++ String.mk (Nat.toDigits 16 v.toNat)

/-- `{:?}` of a symbol name. -/
def debugStr (s : String) : String := "\"" ++ s ++ "\""

def stripPrefix (pre s : String) : Option String :=
  if pre.data.isPrefixOf s.data then some ⟨s.data.drop pre.length⟩ else none

@[simp] theorem assert_eq_ok {b : Bool} {msg : String} {u : Unit} : assert b msg = .ok u ↔ b = true := by
  cases b <;> simp [assert]

@[simp] theorem unwrap_eq_ok {α : Type} {o : Option α} {a : α} : unwrap o = .ok a ↔ o = some a := by
  cases o <;> simp [unwrap]

@[simp] theorem index_eq_ok {α : Type} {l : List α} {i : Nat} {a : α} : index l i = .ok a ↔ l[i]? = some a := by
  cases h : l[i]? <;> simp [index, h]

end Rust

end TouchHLE
