import TouchHLE.Foundation.NSThread
import Mathlib.Logic.Relation

namespace TouchHLE.Foundation

open Objc

/-- A message a guest thread sends, or a libc call it makes. The identifier in `start`,
`detachNewThreadSelector` and `pthreadCreate` is the one `pthread_create` returns. -/
inductive Op
  | alloc
  | allocObject
  | initWithTarget (this target : ObjcId) (selector : SEL) (object : ObjcId)
  | start (this : ObjcId) (pthread : PThread)
  | detachNewThreadSelector (selector : SEL) (target object : ObjcId) (pthread : PThread)
  | currentThread
  | threadDictionary (this : ObjcId)
  | retain (x : ObjcId)
  | release (x : ObjcId)
  | pthreadCreate (pthread : PThread)
  | pthreadExit
  deriving DecidableEq

def Op.newThread : Op → Option PThread
  | .start _ pthread | .detachNewThreadSelector _ _ _ pthread | .pthreadCreate pthread => some pthread
  | _ => none

/-- The guest's view of a state: the environment, and how many references to each object the
guest owns. -/
structure World where
  env : Environment
  owns : ObjcId → Nat

def gain (owns : ObjcId → Nat) (x : ObjcId) : ObjcId → Nat := Function.update owns x (owns x + 1)

/-- Thread `self` performs `op`: `alloc`, `new` and `retain` give the guest a reference, `release`
takes one. -/
def perform (self : PThread) (w : World) : Op → Except String World
  | .alloc =>
    let (x, env) := allocWithZone w.env
    .ok ⟨env, gain w.owns x⟩
  | .allocObject =>
    let (x, objc) := w.env.objc.allocObject none
    .ok ⟨{ w.env with objc := objc }, gain w.owns x⟩
  | .initWithTarget this target selector object => do
    let (_, env) ← initWithTarget this target selector object w.env
    pure { w with env := env }
  | .start this pthread => do
    let env ← start pthread this w.env
    pure { w with env := env }
  | .detachNewThreadSelector selector target object pthread => do
    let env ← detachNewThreadSelector pthread selector target object w.env
    pure { w with env := env }
  | .currentThread => do
    let (_, env) ← currentThread self w.env
    pure { w with env := env }
  | .threadDictionary this => do
    let (_, env) ← threadDictionary this w.env
    pure { w with env := env }
  | .retain x => do
    let objc ← retain x w.env.objc
    pure ⟨{ w.env with objc := objc }, gain w.owns x⟩
  | .release x => do
    let objc ← release x w.env.objc
    pure ⟨{ w.env with objc := objc }, Function.update w.owns x (w.owns x - 1)⟩
  | .pthreadCreate pthread => .ok { w with env := pthreadCreate pthread .guest w.env }
  | .pthreadExit => .ok { w with env := { w.env with threads := Function.update w.env.threads self none } }

/-- What the guest and `pthread_create` may do: `pthread_create` never returns the identifier of
a live thread, and the guest releases only references it owns. -/
def Op.allowed (w : World) (op : Op) : Bool :=
  op.newThread.all (fun pthread => (w.env.threads pthread).isNone) &&
    match op with
    | .release x => 0 < w.owns x
    | _ => true

def Phase.runsGuest : Phase → Bool
  | .pending _ => false
  | _ => true

/-- What the scheduler interleaves: a thread that runs guest code sends a message; a new thread
starts its helper, which sends `-main`; `-main` returns, and the helper finishes and the thread
exits. -/
inductive Event
  | call (self : PThread) (op : Op)
  | enter (self : PThread)
  | exit (self : PThread)
  deriving DecidableEq

def World.run (w : World) : Event → Except String World
  | .call self op =>
    if (w.env.threads self).any Phase.runsGuest && op.allowed w then perform self w op
    else .error "not scheduled"
  | .enter self =>
    match w.env.threads self with
    | some (.pending x) => do
      let _ ← invocationHelperEnter x w.env
      pure { w with env := { w.env with threads := Function.update w.env.threads self (some (.inMain x)) } }
    | _ => .error "not scheduled"
  | .exit self =>
    match w.env.threads self with
    | some (.inMain x) => do
      let env ← invocationHelperExit self x w.env
      pure { w with env := { env with threads := Function.update env.threads self none } }
    | _ => .error "not scheduled"

def Step (w w' : World) : Prop := ∃ e, w.run e = .ok w'

/-- The main thread `0`, and no object yet. -/
def World.init : World :=
  ⟨⟨⟨fun _ => 0, fun _ => none, 1⟩, fun _ => none, Function.update (fun _ => none) 0 (some .guest)⟩, fun _ => 0⟩

inductive Reachable : World → Prop
  | init : Reachable World.init
  | step {w w' : World} : Reachable w → Step w w' → Reachable w'

def World.runEvents (w : World) : List Event → Except String World
  | [] => .ok w
  | e :: es => do (← w.run e).runEvents es

theorem reachable_runEvents {w w' : World} {es : List Event} (hw : Reachable w)
    (h : w.runEvents es = .ok w') : Reachable w' := by
  induction es generalizing w with
  | nil => cases h; exact hw
  | cons e es ih =>
    obtain ⟨w1, h1, h⟩ := except_bind_eq_ok.mp h
    exact ih (.step hw ⟨e, h1⟩) h

/-- The world after the events `es` from the start, if they all run. -/
def afterRun (es : List Event) : World :=
  match World.init.runEvents es with
  | .ok w => w
  | .error _ => World.init

theorem reachable_afterRun {es : List Event} (h : (World.init.runEvents es).toBool = true) :
    Reachable (afterRun es) := by
  unfold afterRun
  split
  · exact reachable_runEvents .init ‹_›
  · rename_i heq
    rw [heq] at h
    cases h

/-- Every thread that `-start` created is, until its helper returns, registered under its
identifier with its NSThread. -/
def Registered (env : Environment) : Prop :=
  ∀ p x, (env.threads p).bind Phase.obj = some x → env.nsThreads p = some x

/-- `env'` keeps every entry of the registry of `env`, and registers each helper thread it does
not share with `env`. -/
def KeepsRegistry (env env' : Environment) : Prop :=
  (∀ p y, env.nsThreads p = some y → env'.nsThreads p = some y) ∧
    ∀ p x, (env'.threads p).bind Phase.obj = some x → env'.threads p = env.threads p ∨ env'.nsThreads p = some x

theorem keepsRegistry_of_nsThreads {env env' : Environment} (hn : env'.nsThreads = env.nsThreads)
    (ht : ∀ p, env'.threads p = env.threads p ∨ (env'.threads p).bind Phase.obj = none) :
    KeepsRegistry env env' :=
  ⟨fun _ _ hy => hn ▸ hy, fun p _ hx => (ht p).imp_right fun h => by rw [h] at hx; cases hx⟩

theorem update_threads_of_obj {threads : PThread → Option Phase} {q : PThread} {ph : Option Phase}
    (h : ph.bind Phase.obj = none) (p : PThread) :
    Function.update threads q ph p = threads p ∨ (Function.update threads q ph p).bind Phase.obj = none := by
  by_cases hp : p = q
  · subst hp
    rw [Function.update_same]
    exact .inr h
  · exact .inl (Function.update_noteq hp _ _)

theorem keepsRegistry_of_start {env env' : Environment} {pthread : PThread} {x : ObjcId}
    (hn : env.nsThreads pthread = none) (ht : env'.threads = Function.update env.threads pthread (some (.pending x)))
    (hns : env'.nsThreads = Function.update env.nsThreads pthread (some x)) : KeepsRegistry env env' := by
  refine ⟨fun p y hy => ?_, fun p z hz => ?_⟩
  · have hp : p ≠ pthread := by
      rintro rfl
      rw [hn] at hy
      cases hy
    rw [hns, Function.update_noteq hp, hy]
  · by_cases hp : p = pthread
    · subst hp
      rw [ht, Function.update_same] at hz
      cases hz
      exact .inr (by rw [hns, Function.update_same])
    · exact .inl (by rw [ht, Function.update_noteq hp])

theorem currentThread_keepsRegistry {pthread : PThread} {env env' : Environment} {t : ObjcId}
    (h : currentThread pthread env = .ok (t, env')) : KeepsRegistry env env' := by
  obtain ⟨-, ht, hother, hsame⟩ := currentThread_eq_ok h
  refine ⟨fun p y hy => ?_, fun _ _ _ => .inl (by rw [ht])⟩
  by_cases hp : p = pthread
  · subst hp; rw [(hsame y hy).2, hy]
  · rw [hother p hp, hy]

theorem perform_keepsRegistry {self : PThread} {w w' : World} {op : Op} (h : perform self w op = .ok w') :
    KeepsRegistry w.env w'.env := by
  have objcOnly : ∀ objc, KeepsRegistry w.env { w.env with objc := objc } :=
    fun _ => keepsRegistry_of_nsThreads rfl fun _ => .inl rfl
  cases op with
  | alloc | allocObject => cases h; exact objcOnly _
  | pthreadCreate | pthreadExit => cases h; exact keepsRegistry_of_nsThreads rfl (update_threads_of_obj rfl)
  | initWithTarget this target selector object =>
    obtain ⟨⟨_, env⟩, hi, h⟩ := except_bind_eq_ok.mp h
    obtain ⟨-, objc, rfl⟩ := initWithTarget_eq_ok hi
    cases h; exact objcOnly objc
  | threadDictionary this =>
    obtain ⟨⟨_, env⟩, hd, h⟩ := except_bind_eq_ok.mp h
    obtain ⟨objc, rfl⟩ := threadDictionary_eq_ok hd
    cases h; exact objcOnly objc
  | retain x | release x =>
    obtain ⟨objc, -, h⟩ := except_bind_eq_ok.mp h
    cases h; exact objcOnly objc
  | start this pthread =>
    obtain ⟨env, hs, h⟩ := except_bind_eq_ok.mp h
    obtain ⟨hn, rfl⟩ := start_eq_ok.mp hs
    cases h; exact keepsRegistry_of_start hn rfl rfl
  | detachNewThreadSelector selector target object pthread =>
    obtain ⟨env, hs, h⟩ := except_bind_eq_ok.mp h
    obtain ⟨new, objc, hn, rfl⟩ := detachNewThreadSelector_eq_ok hs
    cases h; exact keepsRegistry_of_start hn rfl rfl
  | currentThread =>
    obtain ⟨⟨t, env⟩, hc, h⟩ := except_bind_eq_ok.mp h
    cases h
    exact currentThread_keepsRegistry hc

theorem step_cases {w w' : World} (h : Step w w') :
    KeepsRegistry w.env w'.env ∨
      (∃ p x, w.env.threads p = some (.pending x) ∧ w'.env.nsThreads = w.env.nsThreads ∧
        w'.env.threads = Function.update w.env.threads p (some (.inMain x))) ∨
      (∃ p x, w.env.threads p = some (.inMain x) ∧ w.env.nsThreads p ≠ none ∧
        w'.env.nsThreads = Function.update w.env.nsThreads p none ∧
        w'.env.threads = Function.update w.env.threads p none) := by
  obtain ⟨e, he⟩ := h
  cases e with
  | call self op =>
    simp only [World.run] at he
    split_ifs at he
    exact .inl (perform_keepsRegistry he)
  | enter self =>
    simp only [World.run] at he
    split at he
    · rename_i x hp
      obtain ⟨_, -, he⟩ := except_bind_eq_ok.mp he
      cases he
      exact .inr (.inl ⟨self, x, hp, rfl, rfl⟩)
    · cases he
  | exit self =>
    simp only [World.run] at he
    split at he
    · rename_i x hp
      obtain ⟨env, hx, he⟩ := except_bind_eq_ok.mp he
      cases he
      obtain ⟨hn, objc, rfl⟩ := invocationHelperExit_eq_ok hx
      exact .inr (.inr ⟨self, x, hp, hn, rfl, rfl⟩)
    · cases he

theorem Registered.of_keeps {env env' : Environment} (hreg : Registered env) (hk : KeepsRegistry env env') :
    Registered env' := fun p x hx =>
  (hk.2 p x hx).elim (fun ht => hk.1 p x (hreg p x (ht ▸ hx))) id

theorem registered_step {w w' : World} (hreg : Registered w.env) (h : Step w w') : Registered w'.env := by
  intro p x hx
  rcases step_cases h with hk | ⟨q, y, hq, hn, ht⟩ | ⟨q, y, -, -, hn, ht⟩
  · exact hreg.of_keeps hk p x hx
  · rw [hn]
    by_cases hp : p = q
    · subst hp
      rw [ht, Function.update_same] at hx
      obtain rfl : y = x := Option.some.inj hx
      exact hreg p y (by rw [hq]; rfl)
    · rw [ht, Function.update_noteq hp] at hx
      exact hreg p x hx
  · have hp : p ≠ q := by
      rintro rfl
      rw [ht, Function.update_same] at hx
      cases hx
    rw [ht, Function.update_noteq hp] at hx
    rw [hn, Function.update_noteq hp]
    exact hreg p x hx

theorem reachable_registered {w : World} (h : Reachable w) : Registered w.env := by
  induction h with
  | init =>
    intro p x hx
    by_cases hp : p = 0
    · subst hp
      cases hx
    · simp only [World.init, Function.update_noteq hp, Option.bind_none] at hx
      cases hx
  | step _ hstep ih => exact registered_step ih hstep

def detachedThread : List Event :=
  [.call 0 (.detachNewThreadSelector 7 nil nil 1), .call 0 .currentThread]

def releasedBeforeRun : List Event :=
  [.call 0 .alloc, .call 0 .allocObject, .call 0 (.initWithTarget 1 2 7 nil), .call 0 (.start 1 1),
    .call 0 (.release 1)]

/-- `-start` retains nothing: the thread object is deallocated while it is registered and before
its helper has run, and the helper then messages a deallocated object. -/
theorem started_thread_deallocated :
    Reachable (afterRun releasedBeforeRun) ∧ (afterRun releasedBeforeRun).env.nsThreads 1 = some 1 ∧
      (afterRun releasedBeforeRun).env.threads 1 = some (.pending 1) ∧
      (afterRun releasedBeforeRun).env.objc.refCount 1 = 0 ∧
      Rust.panicMessage (invocationHelperEnter 1 (afterRun releasedBeforeRun).env) =
        some "message sent to a deallocated object" :=
  ⟨reachable_afterRun (by decide), by decide, by decide, by decide, by decide⟩

def releasedUnstarted : List Event :=
  [.call 0 .allocObject, .call 0 .alloc, .call 0 (.initWithTarget 2 1 7 nil), .call 0 (.release 2)]

def startedTwice : List Event :=
  [.call 0 .allocObject, .call 0 .alloc, .call 0 (.initWithTarget 2 1 7 nil), .call 0 (.start 2 1),
    .call 0 (.start 2 2), .enter 1, .exit 1, .enter 2, .exit 2]

/-- The retain of the target is released by every helper that finishes and by nothing else: an
unstarted thread leaks it, and a thread started twice releases it twice, freeing the target while
the guest still owns a reference, whose release then fails. -/
theorem thread_target_unbalanced :
    (Reachable (afterRun releasedUnstarted) ∧ (afterRun releasedUnstarted).env.objc.refCount 2 = 0 ∧
      (afterRun releasedUnstarted).env.objc.refCount 1 = (afterRun releasedUnstarted).owns 1 + 1) ∧
    (Reachable (afterRun startedTwice) ∧ (afterRun startedTwice).env.objc.refCount 1 = 0 ∧
      (afterRun startedTwice).owns 1 = 1 ∧
      Rust.panicMessage ((afterRun startedTwice).run (.call 0 (.release 1))) =
        some "release of a deallocated object") :=
  ⟨⟨reachable_afterRun (by decide), by decide, by decide⟩,
    ⟨reachable_afterRun (by decide), by decide, by decide, by decide⟩⟩

def exitedAfterCurrentThread : List Event :=
  [.call 0 (.pthreadCreate 1), .call 1 .currentThread, .call 1 .pthreadExit]

/-- The exited thread stays a key: a new thread that `pthread_create` gives its identifier gets
the exited thread's NSThread, and a thread detached under it fails the assertion of `-start`. -/
theorem registry_keeps_exited_thread :
    Reachable (afterRun exitedAfterCurrentThread) ∧ (afterRun exitedAfterCurrentThread).env.threads 1 = none ∧
      (afterRun exitedAfterCurrentThread).env.nsThreads 1 = some 1 ∧
      (currentThread 1 (afterRun (exitedAfterCurrentThread ++ [.call 0 (.pthreadCreate 1)])).env).toOption.map
        Prod.fst = some 1 ∧
      Rust.panicMessage ((afterRun exitedAfterCurrentThread).run (.call 0 (.detachNewThreadSelector 7 nil nil 1))) =
        some "assertion failed: !State::get(env).ns_threads.contains_key(&pthread)" :=
  ⟨reachable_afterRun (by decide), by decide, by decide, by decide, by decide⟩

end TouchHLE.Foundation
