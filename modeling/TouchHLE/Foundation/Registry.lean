import TouchHLE.Foundation.Threads

namespace TouchHLE.Foundation

open Objc

theorem borrow_error {x : ObjcId} {o : Objects NSThreadHostObject} {e : String} (hb : o.borrow x = .error e) :
    e = "borrow of an object without this host object" := by
  unfold Objects.borrow at hb
  split at hb <;> cases hb
  rfl

theorem releaseWith_error {dealloc : ObjcId → Objects NSThreadHostObject → Except String (Objects NSThreadHostObject)}
    {x : ObjcId} {o : Objects NSThreadHostObject} {e : String} (h : releaseWith dealloc x o = .error e) :
    e = "release of a deallocated object" ∨ dealloc x o = .error e := by
  unfold releaseWith at h
  split_ifs at h
  split at h
  · cases h
    exact .inl rfl
  · exact .inr h
  · cases h

theorem release_error {x : ObjcId} {o : Objects NSThreadHostObject} {e : String} (h : release x o = .error e) :
    e = "release of a deallocated object" ∨ e = "borrow of an object without this host object" := by
  rcases releaseWith_error h with he | h
  · exact .inl he
  split at h
  · rcases except_bind_eq_error.mp h with hb | ⟨hostObject, -, h⟩
    · exact .inr (borrow_error hb)
    rcases except_bind_eq_error.mp h with hr | ⟨_, -, h⟩
    · rcases releaseWith_error hr with he | hn
      · exact .inl he
      · cases hn
    · cases h
  · cases h

theorem invocationHelperExit_error {pthread : PThread} {x : ObjcId} {env : Environment} {e : String}
    (hreg : env.nsThreads pthread ≠ none) (h : invocationHelperExit pthread x env = .error e) :
    e = "release of a deallocated object" ∨ e = "borrow of an object without this host object" := by
  rcases except_bind_eq_error.mp h with hb | ⟨hostObject, -, h⟩
  · exact .inr (borrow_error hb)
  rcases except_bind_eq_error.mp h with h1 | ⟨o1, -, h⟩
  · exact release_error h1
  rcases except_bind_eq_error.mp h with h2 | ⟨o2, -, h⟩
  · exact release_error h2
  rcases except_bind_eq_error.mp h with ha | ⟨_, -, h⟩
  · rw [Rust.assert, if_pos (Option.isSome_iff_ne_none.mpr hreg)] at ha
    cases ha
  split at h
  · rcases except_bind_eq_error.mp h with h3 | ⟨o3, -, h⟩
    · exact release_error h3
    · cases h
  · cases h

/-- The assertion at the end of `_touchHLE_NSThreadInvocationHelper` never fails. In every
reachable world, the helper of a thread whose `-main` has returned finds the thread's entry in
`State.ns_threads`: it can fail only on a retain count, never with
"assertion failed: res.is_some()". -/
theorem invocationHelperExit_assert_holds {w : World} (h : Reachable w) {p : PThread} {x : ObjcId}
    (hp : w.env.threads p = some (.inMain x)) :
    Rust.panicMessage (invocationHelperExit p x w.env) = none ∨
      Rust.panicMessage (invocationHelperExit p x w.env) = some "release of a deallocated object" ∨
      Rust.panicMessage (invocationHelperExit p x w.env) = some "borrow of an object without this host object" := by
  have hreg : w.env.nsThreads p ≠ none := by
    rw [reachable_registered h p x (by rw [hp]; rfl)]
    exact nofun
  cases he : invocationHelperExit p x w.env with
  | ok _ => exact .inl rfl
  | error e =>
    rcases invocationHelperExit_error hreg he with rfl | rfl
    · exact .inr (.inl rfl)
    · exact .inr (.inr rfl)

def startedTwiceInMain : List Event :=
  [.call 0 .allocObject, .call 0 .alloc, .call 0 (.initWithTarget 2 1 7 nil), .call 0 (.start 2 1),
    .call 0 (.start 2 2), .enter 1, .exit 1, .enter 2]

theorem invocationHelperExit_assert_holds_startedTwice :
    Rust.panicMessage (invocationHelperExit 2 2 (afterRun startedTwiceInMain).env) = none ∨
      Rust.panicMessage (invocationHelperExit 2 2 (afterRun startedTwiceInMain).env) =
        some "release of a deallocated object" ∨
      Rust.panicMessage (invocationHelperExit 2 2 (afterRun startedTwiceInMain).env) =
        some "borrow of an object without this host object" :=
  invocationHelperExit_assert_holds (reachable_afterRun (by decide)) (by decide)

def Event.exitsThread : Event → Bool
  | .call _ .pthreadExit => true
  | _ => false

/-- The worlds of the runs in which no thread calls `pthread_exit`. -/
inductive ReachableNoExit : World → Prop
  | init : ReachableNoExit World.init
  | step {w w' : World} {e : Event} : ReachableNoExit w → e.exitsThread = false → w.run e = .ok w' →
      ReachableNoExit w'

/-- Every key of `State.ns_threads` is a live thread. -/
def KeysLive (env : Environment) : Prop := ∀ p, env.threads p = none → env.nsThreads p = none

theorem KeysLive.update {env env' : Environment} (hl : KeysLive env) {q : PThread}
    (ht : ∀ p, p ≠ q → env'.threads p = env.threads p) (hn : ∀ p, p ≠ q → env'.nsThreads p = env.nsThreads p)
    (hq : env'.threads q = none → env'.nsThreads q = none) : KeysLive env' := fun p hp => by
  by_cases hpq : p = q
  · subst hpq
    exact hq hp
  · rw [hn p hpq]
    exact hl p (by rw [← ht p hpq]; exact hp)

theorem KeysLive.start {env : Environment} (hl : KeysLive env) {pthread : PThread} {x : ObjcId} :
    KeysLive { env with
      threads := Function.update env.threads pthread (some (.pending x)),
      nsThreads := Function.update env.nsThreads pthread (some x) } :=
  hl.update (fun _ hp => Function.update_noteq hp _ _) (fun _ hp => Function.update_noteq hp _ _)
    fun h => by simp at h

theorem keysLive_perform {self : PThread} {w w' : World} {op : Op} (hl : KeysLive w.env)
    (hself : w.env.threads self ≠ none) (hop : op ≠ .pthreadExit) (h : perform self w op = .ok w') :
    KeysLive w'.env := by
  cases op with
  | alloc | allocObject => cases h; exact hl
  | pthreadExit => exact absurd rfl hop
  | pthreadCreate pthread =>
    cases h
    exact hl.update (fun _ hp => Function.update_noteq hp _ _) (fun _ _ => rfl)
      fun h => by simp only [pthreadCreate, Function.update_same] at h; cases h
  | initWithTarget this target selector object =>
    obtain ⟨⟨_, env⟩, hi, h⟩ := except_bind_eq_ok.mp h
    obtain ⟨-, objc, rfl⟩ := initWithTarget_eq_ok hi
    cases h; exact hl
  | threadDictionary this =>
    obtain ⟨⟨_, env⟩, hd, h⟩ := except_bind_eq_ok.mp h
    obtain ⟨objc, rfl⟩ := threadDictionary_eq_ok hd
    cases h; exact hl
  | retain x | release x =>
    obtain ⟨objc, -, h⟩ := except_bind_eq_ok.mp h
    cases h; exact hl
  | start this pthread =>
    obtain ⟨env, hs, h⟩ := except_bind_eq_ok.mp h
    obtain ⟨-, rfl⟩ := start_eq_ok.mp hs
    cases h; exact hl.start
  | detachNewThreadSelector selector target object pthread =>
    obtain ⟨env, hs, h⟩ := except_bind_eq_ok.mp h
    obtain ⟨new, objc, -, rfl⟩ := detachNewThreadSelector_eq_ok hs
    cases h; exact (show KeysLive { w.env with objc := objc } from hl).start
  | currentThread =>
    obtain ⟨⟨t, env⟩, hc, h⟩ := except_bind_eq_ok.mp h
    cases h
    obtain ⟨-, ht, hother, -⟩ := currentThread_eq_ok hc
    exact hl.update (fun p _ => by rw [ht]) hother fun h => absurd (ht ▸ h) hself

theorem keysLive_step {w w' : World} {e : Event} (hl : KeysLive w.env) (he : e.exitsThread = false)
    (h : w.run e = .ok w') : KeysLive w'.env := by
  cases e with
  | call self op =>
    simp only [World.run] at h
    split_ifs at h with hs
    exact keysLive_perform hl (fun hn => by simp [hn] at hs) (fun hop => by subst hop; cases he) h
  | enter self =>
    simp only [World.run] at h
    split at h
    · obtain ⟨_, -, h⟩ := except_bind_eq_ok.mp h
      cases h
      exact hl.update (fun _ hp => Function.update_noteq hp _ _) (fun _ _ => rfl) fun h => by simp at h
    · cases h
  | exit self =>
    simp only [World.run] at h
    split at h
    · obtain ⟨env, hx, h⟩ := except_bind_eq_ok.mp h
      cases h
      obtain ⟨-, objc, rfl⟩ := invocationHelperExit_eq_ok hx
      exact hl.update (fun _ hp => Function.update_noteq hp _ _) (fun _ hp => Function.update_noteq hp _ _)
        fun _ => Function.update_same _ _ _
    · cases h

theorem reachableNoExit_keysLive {w : World} (h : ReachableNoExit w) : KeysLive w.env := by
  induction h with
  | init =>
    intro p _
    rfl
  | step _ he hr ih => exact keysLive_step ih he hr

/-- Without `pthread_exit`, `State.ns_threads` names only live threads. In every run in which no
thread calls `pthread_exit`, a thread that is not live has no entry, so `-start` under any
identifier `pthread_create` may return passes its assertion and registers the new thread. -/
theorem registry_live_without_exit {w : World} (h : ReachableNoExit w) :
    (∀ p, w.env.threads p = none → w.env.nsThreads p = none) ∧
      ∀ p this, w.env.threads p = none → start p this w.env = .ok { w.env with
        threads := Function.update w.env.threads p (some (.pending this)),
        nsThreads := Function.update w.env.nsThreads p (some this) } :=
  ⟨reachableNoExit_keysLive h, fun p _ hp => start_eq_ok.mpr ⟨reachableNoExit_keysLive h p hp, rfl⟩⟩

theorem reachableNoExit_runEvents {w w' : World} {es : List Event} (hw : ReachableNoExit w)
    (hes : es.all (fun e => !e.exitsThread) = true) (h : w.runEvents es = .ok w') : ReachableNoExit w' := by
  induction es generalizing w with
  | nil => cases h; exact hw
  | cons e es ih =>
    rw [List.all_cons, Bool.and_eq_true, Bool.not_eq_true'] at hes
    obtain ⟨w1, h1, h⟩ := except_bind_eq_ok.mp h
    exact ih (.step hw hes.1 h1) hes.2 h

theorem registry_live_without_exit_detached :
    (∀ p, (afterRun detachedThread).env.threads p = none → (afterRun detachedThread).env.nsThreads p = none) ∧
      ∀ p this, (afterRun detachedThread).env.threads p = none → start p this (afterRun detachedThread).env =
        .ok { (afterRun detachedThread).env with
          threads := Function.update (afterRun detachedThread).env.threads p (some (.pending this)),
          nsThreads := Function.update (afterRun detachedThread).env.nsThreads p (some this) } :=
  registry_live_without_exit (reachableNoExit_runEvents .init (by decide)
    (show World.init.runEvents detachedThread = .ok (afterRun detachedThread) from rfl))

end TouchHLE.Foundation
