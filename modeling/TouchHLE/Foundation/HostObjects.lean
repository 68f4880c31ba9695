import TouchHLE.Foundation.Threads

namespace TouchHLE.Foundation

open Objc

/-- No reference at or beyond the next one `alloc_object` hands out has a host object. -/
def Fresh (o : Objects NSThreadHostObject) : Prop := ∀ y, o.next ≤ y → o.hostObjects y = none

/-- `o'` follows `o` in a run: no reference is handed out twice, and an object that is not freed
keeps its host object, whose thread dictionary is set only while it is `nil`. -/
structure Keeps (o o' : Objects NSThreadHostObject) : Prop where
  next : o.next ≤ o'.next
  fresh : Fresh o'
  host : ∀ x < o.next, o'.hostObjects x = none ∨ ∃ h h', o.hostObjects x = some h ∧
    o'.hostObjects x = some h' ∧ (h.threadDictionary = nil ∨ h'.threadDictionary = h.threadDictionary)

namespace Keeps

variable {o o' o'' : Objects NSThreadHostObject}

theorem of_drop (hf : Fresh o) (hn : o'.next = o.next)
    (hh : ∀ y, o'.hostObjects y = none ∨ o'.hostObjects y = o.hostObjects y) : Keeps o o' := by
  refine ⟨hn.ge, fun y hy => (hh y).elim id fun h => h.trans (hf y (hn ▸ hy)), fun x _ => ?_⟩
  rcases hh x with h | h
  · exact .inl h
  cases hx : o.hostObjects x with
  | none => exact .inl (h.trans hx)
  | some g => exact .inr ⟨g, g, rfl, h.trans hx, .inr rfl⟩

theorem of_eq (hf : Fresh o) (hn : o'.next = o.next) (hh : o'.hostObjects = o.hostObjects) : Keeps o o' :=
  of_drop hf hn fun y => .inr (congrFun hh y)

theorem refl (hf : Fresh o) : Keeps o o := of_eq hf rfl rfl

theorem trans (h1 : Keeps o o') (h2 : Keeps o' o'') : Keeps o o'' := by
  refine ⟨h1.next.trans h2.next, h2.fresh, fun x hx => ?_⟩
  rcases h2.host x (lt_of_lt_of_le hx h1.next) with h | ⟨h', h'', h1', h2', hd2⟩
  · exact .inl h
  rcases h1.host x hx with h | ⟨h, h0', h01, h02, hd1⟩
  · rw [h] at h1'
    cases h1'
  rw [h02, Option.some.injEq] at h1'
  subst h1'
  refine .inr ⟨h, h'', h01, h2', ?_⟩
  rcases hd1 with hd1 | hd1
  · exact .inl hd1
  · rcases hd2 with hd2 | hd2
    · exact .inl (hd1 ▸ hd2)
    · exact .inr (hd2.trans hd1)

end Keeps

section Ops

variable {o o' : Objects NSThreadHostObject} (hf : Fresh o)
include hf

theorem keeps_allocObject (host : Option NSThreadHostObject) : Keeps o (o.allocObject host).2 := by
  refine ⟨Nat.le_succ _, fun y hy => ?_, fun x hx => ?_⟩
  · dsimp only [Objects.allocObject] at hy ⊢
    rw [Function.update_noteq (Nat.lt_of_succ_le hy).ne']
    exact hf y (Nat.le_of_succ_le hy)
  · dsimp only [Objects.allocObject]
    rw [Function.update_noteq hx.ne]
    exact (Keeps.refl hf).host x hx

theorem keeps_deallocObject (x : ObjcId) : Keeps o (o.deallocObject x) :=
  Keeps.of_drop hf rfl fun y => by
    by_cases hyx : y = x
    · exact .inl (by rw [hyx]; exact Function.update_same _ _ _)
    · exact .inr (Function.update_noteq hyx _ _)

theorem keeps_borrowMut {x : ObjcId} {f : NSThreadHostObject → NSThreadHostObject} (h : o.borrowMut x f = .ok o')
    (hd : ∀ h, o.hostObjects x = some h → h.threadDictionary = nil ∨ (f h).threadDictionary = h.threadDictionary) :
    Keeps o o' := by
  obtain ⟨hh, hx, rfl⟩ := Objects.borrowMut_eq_ok.mp h
  have hlt : x < o.next := Nat.lt_of_not_le fun hle => by rw [hf x hle] at hx; cases hx
  refine ⟨le_rfl, fun y hy => ?_, fun y hy => ?_⟩
  · dsimp only at hy ⊢
    rw [Function.update_noteq (Nat.lt_of_lt_of_le hlt hy).ne']
    exact hf y hy
  · dsimp only
    by_cases hyx : y = x
    · subst hyx
      rw [Function.update_same]
      exact .inr ⟨hh, f hh, hx, rfl, hd hh hx⟩
    · rw [Function.update_noteq hyx]
      exact (Keeps.refl hf).host y hy

theorem keeps_retain {x : ObjcId} (h : retain x o = .ok o') : Keeps o o' := by
  rcases retain_eq_ok.mp h with ⟨-, rfl⟩ | ⟨-, -, rfl⟩
  · exact Keeps.refl hf
  · exact Keeps.of_eq hf rfl rfl

omit hf in
theorem keeps_releaseWith {dealloc : ObjcId → Objects NSThreadHostObject → Except String (Objects NSThreadHostObject)}
    (hd : ∀ y o o', Fresh o → dealloc y o = .ok o' → Keeps o o') {x : ObjcId} (hf : Fresh o)
    (h : releaseWith dealloc x o = .ok o') : Keeps o o' := by
  rcases releaseWith_eq_ok.mp h with ⟨-, rfl⟩ | ⟨-, -, h⟩ | ⟨-, -, rfl⟩
  · exact Keeps.refl hf
  · exact hd x o o' hf h
  · exact Keeps.of_eq hf rfl rfl

end Ops

theorem keeps_nsObjectDealloc (y : ObjcId) (o o' : Objects NSThreadHostObject) (hf : Fresh o)
    (h : nsObjectDealloc y o = .ok o') : Keeps o o' := by
  cases h
  exact keeps_deallocObject hf y

theorem keeps_dealloc (y : ObjcId) (o o' : Objects NSThreadHostObject) (hf : Fresh o)
    (h : dealloc y o = .ok o') : Keeps o o' := by
  simp only [dealloc, except_bind_eq_ok] at h
  obtain ⟨hostObject, -, o1, h1, h⟩ := h
  cases h
  have k1 := keeps_releaseWith keeps_nsObjectDealloc hf h1
  exact k1.trans (keeps_deallocObject k1.fresh y)

theorem keeps_release {x : ObjcId} {o o' : Objects NSThreadHostObject} (hf : Fresh o)
    (h : release x o = .ok o') : Keeps o o' :=
  keeps_releaseWith (fun y o o' hf h => by
    split at h
    · exact keeps_dealloc y o o' hf h
    · exact keeps_nsObjectDealloc y o o' hf h) hf h

section Methods

variable {env env' : Environment} (hf : Fresh env.objc)
include hf

theorem keeps_currentThread {pthread : PThread} {t : ObjcId} (h : currentThread pthread env = .ok (t, env')) :
    Keeps env.objc env'.objc := by
  cases hp : env.nsThreads pthread with
  | some u =>
    rw [currentThread_of_registered hp] at h
    cases h
    exact Keeps.refl hf
  | none =>
    simp only [currentThread, hp, Option.isSome_none, Bool.false_eq_true, if_false, allocWithZone,
      Function.update_same, Rust.unwrap, bind, Except.bind, pure, Except.pure, Except.ok.injEq, Prod.mk.injEq] at h
    obtain ⟨rfl, rfl⟩ := h
    exact keeps_allocObject hf _

theorem keeps_initWithTarget {this target object r : ObjcId} {selector : SEL}
    (h : initWithTarget this target selector object env = .ok (r, env')) : Keeps env.objc env'.objc := by
  simp only [initWithTarget, except_bind_eq_ok] at h
  obtain ⟨o1, h1, o2, h2, o3, h3, o4, h4, o5, h5, h⟩ := h
  cases h
  have k1 := keeps_borrowMut hf h1 fun _ _ => .inr rfl
  have k2 := k1.trans (keeps_retain k1.fresh h2)
  have k3 := k2.trans (keeps_borrowMut k2.fresh h3 fun _ _ => .inr rfl)
  have k4 := k3.trans (keeps_borrowMut k3.fresh h4 fun _ _ => .inr rfl)
  exact k4.trans (keeps_retain k4.fresh h5)

theorem keeps_detachNewThreadSelector {pthread : PThread} {selector : SEL} {target object : ObjcId}
    (h : detachNewThreadSelector pthread selector target object env = .ok env') : Keeps env.objc env'.objc := by
  simp only [detachNewThreadSelector, except_bind_eq_ok] at h
  obtain ⟨⟨new, env1⟩, hinit, objc, hb, h⟩ := h
  obtain ⟨-, rfl⟩ := start_eq_ok.mp h
  have k1 := keeps_allocObject hf (some ⟨nil, none, nil, nil, false⟩)
  have k2 := k1.trans (keeps_initWithTarget k1.fresh hinit)
  exact k2.trans (keeps_borrowMut k2.fresh hb fun _ _ => .inr rfl)

theorem keeps_threadDictionary {this d : ObjcId} (h : threadDictionary this env = .ok (d, env')) :
    Keeps env.objc env'.objc := by
  simp only [threadDictionary, except_bind_eq_ok] at h
  obtain ⟨hostObject, hb, h⟩ := h
  rw [Objects.borrow_eq_ok] at hb
  split_ifs at h with hnil
  · obtain ⟨objc, hm, h⟩ := except_bind_eq_ok.mp h
    cases h
    have hlt : this < env.objc.next := Nat.lt_of_not_le fun hle => by rw [hf this hle] at hb; cases hb
    have k1 := keeps_allocObject hf none
    refine k1.trans (keeps_borrowMut k1.fresh hm fun h' hh => .inl ?_)
    dsimp only [Objects.allocObject] at hh
    rw [Function.update_noteq hlt.ne, hb, Option.some.injEq] at hh
    rw [← hh]
    exact hnil
  · cases h
    exact Keeps.refl hf

theorem keeps_invocationHelperExit {pthread : PThread} {x : ObjcId} (h : invocationHelperExit pthread x env = .ok env') :
    Keeps env.objc env'.objc := by
  simp only [invocationHelperExit, except_bind_eq_ok, Rust.assert_eq_ok] at h
  obtain ⟨hostObject, -, o1, h1, o2, h2, _, -, h⟩ := h
  have k2 := (keeps_release hf h1).trans (keeps_release (keeps_release hf h1).fresh h2)
  split_ifs at h
  · obtain ⟨o3, h3, h⟩ := except_bind_eq_ok.mp h
    cases h
    exact k2.trans (keeps_release k2.fresh h3)
  · cases h
    exact k2

end Methods

theorem keeps_perform {self : PThread} {w w' : World} {op : Op} (hf : Fresh w.env.objc)
    (h : perform self w op = .ok w') : Keeps w.env.objc w'.env.objc := by
  cases op with
  | alloc => cases h; exact keeps_allocObject hf _
  | allocObject => cases h; exact keeps_allocObject hf none
  | pthreadCreate | pthreadExit => cases h; exact Keeps.refl hf
  | initWithTarget this target selector object =>
    obtain ⟨⟨_, env⟩, hi, h⟩ := except_bind_eq_ok.mp h
    cases h; exact keeps_initWithTarget hf hi
  | start this pthread =>
    obtain ⟨env, hs, h⟩ := except_bind_eq_ok.mp h
    obtain ⟨-, rfl⟩ := start_eq_ok.mp hs
    cases h; exact Keeps.refl hf
  | detachNewThreadSelector selector target object pthread =>
    obtain ⟨env, hs, h⟩ := except_bind_eq_ok.mp h
    cases h; exact keeps_detachNewThreadSelector hf hs
  | currentThread =>
    obtain ⟨⟨t, env⟩, hc, h⟩ := except_bind_eq_ok.mp h
    cases h; exact keeps_currentThread hf hc
  | threadDictionary this =>
    obtain ⟨⟨_, env⟩, hd, h⟩ := except_bind_eq_ok.mp h
    cases h; exact keeps_threadDictionary hf hd
  | retain x =>
    obtain ⟨objc, hr, h⟩ := except_bind_eq_ok.mp h
    cases h; exact keeps_retain hf hr
  | release x =>
    obtain ⟨objc, hr, h⟩ := except_bind_eq_ok.mp h
    cases h; exact keeps_release hf hr

theorem keeps_step {w w' : World} (hf : Fresh w.env.objc) (h : Step w w') : Keeps w.env.objc w'.env.objc := by
  obtain ⟨e, he⟩ := h
  cases e with
  | call self op =>
    simp only [World.run] at he
    split_ifs at he
    exact keeps_perform hf he
  | enter self =>
    simp only [World.run] at he
    split at he
    · obtain ⟨_, -, he⟩ := except_bind_eq_ok.mp he
      cases he
      exact Keeps.refl hf
    · cases he
  | exit self =>
    simp only [World.run] at he
    split at he
    · obtain ⟨env, hx, he⟩ := except_bind_eq_ok.mp he
      cases he
      exact (keeps_invocationHelperExit hf hx :)
    · cases he

theorem reachable_fresh {w : World} (h : Reachable w) : Fresh w.env.objc := by
  induction h with
  | init => exact fun _ _ => rfl
  | step _ hs ih => exact (keeps_step ih hs).fresh

theorem keeps_run {w w' : World} (h : Reachable w) (hrun : Relation.ReflTransGen Step w w') :
    Keeps w.env.objc w'.env.objc := by
  induction hrun with
  | refl => exact Keeps.refl (reachable_fresh h)
  | tail _ hs ih => exact ih.trans (keeps_step ih.fresh hs)

/-- A thread dictionary, once created, is never replaced. Along every run from a reachable world
during which an NSThread keeps its host object, its thread dictionary, once set, stays, and
`-threadDictionary` returns it and changes nothing. -/
theorem threadDictionary_stable {w w' : World} (h : Reachable w) {x : ObjcId}
    (hrun : Relation.ReflTransGen (fun a b => Step a b ∧ b.env.objc.hostObjects x ≠ none) w w')
    {hostObject : NSThreadHostObject} (hx : w.env.objc.hostObjects x = some hostObject)
    (hd : hostObject.threadDictionary ≠ nil) :
    threadDictionary x w'.env = .ok (hostObject.threadDictionary, w'.env) := by
  have hlive : w'.env.objc.hostObjects x ≠ none := by
    cases hrun with
    | refl => rw [hx]; exact nofun
    | tail _ hs => exact hs.2
  have hlt : x < w.env.objc.next := Nat.lt_of_not_le fun hle => by rw [reachable_fresh h x hle] at hx; cases hx
  rcases (keeps_run h (hrun.mono fun _ _ hs => hs.1)).host x hlt with hn | ⟨h0, h', h0x, h'x, hd'⟩
  · exact absurd hn hlive
  obtain rfl : h0 = hostObject := Option.some.inj (h0x.symm.trans hx)
  simp only [threadDictionary, Objects.borrow, h'x, bind, Except.bind, hd'.resolve_left hd, if_neg hd, pure,
    Except.pure]

def dictionaryRetained : List Event := [.call 0 .alloc, .call 0 (.threadDictionary 1), .call 0 (.retain 1)]

theorem threadDictionary_stable_created :
    threadDictionary 1 (afterRun dictionaryRetained).env = .ok (2, (afterRun dictionaryRetained).env) :=
  threadDictionary_stable (w := afterRun (dictionaryRetained.take 2)) (reachable_afterRun (by decide))
    (.single ⟨⟨.call 0 (.retain 1), rfl⟩, by decide⟩)
    (show (afterRun (dictionaryRetained.take 2)).env.objc.hostObjects 1 = some ⟨nil, none, nil, 2, false⟩ by decide)
    (by decide)

end TouchHLE.Foundation
