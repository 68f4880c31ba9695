import TouchHLE.Rust

namespace TouchHLE.Objc

/-- `id`: a reference to an object; `nil` is 0. -/
abbrev ObjcId := Nat

def nil : ObjcId := 0

/-- `SEL`, by number. -/
abbrev SEL := Nat

/-- Modelled from the spec: `crate::objc` is not in src/. Its table of objects: the retain count
of each (0 before it is allocated and once it is deallocated), the host objects of type `H`, and
the next reference `alloc_object` hands out. -/
structure Objects (H : Type) where
  refCount : ObjcId → Nat
  hostObjects : ObjcId → Option H
  next : ObjcId

namespace Objects

variable {H : Type}

/-- `alloc_object`: a new object, retained once for the caller. touchHLE takes its address from
the guest heap, which may hand out a freed address again; a counter stands for it here, and the
theorems over runs speak only of objects that stay allocated, on which the two agree. -/
def allocObject (o : Objects H) (host : Option H) : ObjcId × Objects H :=
  (o.next, ⟨Function.update o.refCount o.next 1, Function.update o.hostObjects o.next host, o.next + 1⟩)

/-- `dealloc_object`: the object and its host object are gone. -/
def deallocObject (o : Objects H) (x : ObjcId) : Objects H :=
  { o with refCount := Function.update o.refCount x 0, hostObjects := Function.update o.hostObjects x none }

def borrow (o : Objects H) (x : ObjcId) : Except String H :=
  match o.hostObjects x with
  | some h => .ok h
  | none => .error "borrow of an object without this host object"

def borrowMut (o : Objects H) (x : ObjcId) (f : H → H) : Except String (Objects H) :=
  match o.hostObjects x with
  | some h => .ok { o with hostObjects := Function.update o.hostObjects x (some (f h)) }
  | none => .error "borrow of an object without this host object"

@[simp] theorem refCount_allocObject (o : Objects H) (host : Option H) :
    (o.allocObject host).2.refCount = Function.update o.refCount o.next 1 := rfl

@[simp] theorem refCount_deallocObject (o : Objects H) (x : ObjcId) :
    (o.deallocObject x).refCount = Function.update o.refCount x 0 := rfl

theorem borrow_eq_ok {o : Objects H} {x : ObjcId} {h : H} : o.borrow x = .ok h ↔ o.hostObjects x = some h := by
  unfold borrow
  cases o.hostObjects x <;> simp

theorem borrowMut_eq_ok {o o' : Objects H} {x : ObjcId} {f : H → H} :
    o.borrowMut x f = .ok o' ↔ ∃ h, o.hostObjects x = some h ∧
      o' = { o with hostObjects := Function.update o.hostObjects x (some (f h)) } := by
  unfold borrowMut
  cases o.hostObjects x <;> simp [eq_comm]

theorem refCount_borrowMut {o o' : Objects H} {x : ObjcId} {f : H → H} (h : o.borrowMut x f = .ok o') :
    o'.refCount = o.refCount := by
  obtain ⟨_, _, rfl⟩ := borrowMut_eq_ok.mp h
  rfl

end Objects

open Objects

variable {H : Type}

/-- `retain`: `nil` is left alone. -/
def retain (x : ObjcId) (o : Objects H) : Except String (Objects H) :=
  if x = nil then .ok o
  else if o.refCount x = 0 then .error "retain of a deallocated object"
  else .ok { o with refCount := Function.update o.refCount x (o.refCount x + 1) }

/-- `release`, with the `-dealloc` of the object's class run when its last reference goes. -/
def releaseWith (dealloc : ObjcId → Objects H → Except String (Objects H)) (x : ObjcId) (o : Objects H) :
    Except String (Objects H) :=
  if x = nil then .ok o
  else match o.refCount x with
    | 0 => .error "release of a deallocated object"
    | 1 => dealloc x o
    | n + 2 => .ok { o with refCount := Function.update o.refCount x (n + 1) }

/-- `-[NSObject dealloc]`: the object is freed. -/
def nsObjectDealloc (x : ObjcId) (o : Objects H) : Except String (Objects H) := .ok (o.deallocObject x)

theorem retain_eq_ok {x : ObjcId} {o o' : Objects H} :
    retain x o = .ok o' ↔ (x = nil ∧ o' = o) ∨
      (x ≠ nil ∧ o.refCount x ≠ 0 ∧ o' = { o with refCount := Function.update o.refCount x (o.refCount x + 1) }) := by
  unfold retain
  split_ifs <;> simp_all [eq_comm]

theorem releaseWith_eq_ok {dealloc : ObjcId → Objects H → Except String (Objects H)} {x : ObjcId}
    {o o' : Objects H} :
    releaseWith dealloc x o = .ok o' ↔ (x = nil ∧ o' = o) ∨
      (x ≠ nil ∧ o.refCount x = 1 ∧ dealloc x o = .ok o') ∨
      (x ≠ nil ∧ 2 ≤ o.refCount x ∧ o' = { o with refCount := Function.update o.refCount x (o.refCount x - 1) }) := by
  unfold releaseWith
  split_ifs with hx
  · simp [hx, eq_comm]
  · split <;> rename_i hc <;> simp [hx, hc, eq_comm]

theorem refCount_releaseWith_nsObjectDealloc {x y : ObjcId} {o o' : Objects H} (hy : y ≠ x)
    (h : releaseWith nsObjectDealloc x o = .ok o') : o'.refCount y = o.refCount y := by
  rcases releaseWith_eq_ok.mp h with ⟨-, rfl⟩ | ⟨-, -, h⟩ | ⟨-, -, rfl⟩
  · rfl
  · cases h
    exact Function.update_noteq hy _ _
  · exact Function.update_noteq hy _ _

end TouchHLE.Objc
