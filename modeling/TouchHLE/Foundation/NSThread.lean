import TouchHLE.Objc.Objects

namespace TouchHLE.Foundation

open Objc

/-- `pthread_t`. -/
abbrev PThread := Nat

structure NSThreadHostObject where
  target : ObjcId
  selector : Option SEL
  object : ObjcId
  threadDictionary : ObjcId
  owned : Bool
  deriving DecidableEq

/-- Modelled from the spec: `crate::libc::pthread` is not in src/. What a live thread runs:
guest code (the main thread, or a thread from `pthread_create`), or
`_touchHLE_NSThreadInvocationHelper` on an NSThread, before it has sent `-main` and while the
guest code of `-main` runs. -/
inductive Phase
  | guest
  | pending (obj : ObjcId)
  | inMain (obj : ObjcId)
  deriving DecidableEq

def Phase.obj : Phase → Option ObjcId
  | .guest => none
  | .pending x => some x
  | .inMain x => some x

/-- The part of `Environment` these methods use: the objects, `State.ns_threads`, and the live
threads. -/
structure Environment where
  objc : Objects NSThreadHostObject
  nsThreads : PThread → Option ObjcId
  threads : PThread → Option Phase

/-- `+[NSThread allocWithZone:]`. -/
def allocWithZone (env : Environment) : ObjcId × Environment :=
  let (x, objc) := env.objc.allocObject (some ⟨nil, none, nil, nil, false⟩)
  (x, { env with objc := objc })

/-- `-[NSThread dealloc]`. The thread dictionary is an `NSMutableDictionary`, whose `-dealloc`
frees it. -/
def dealloc (this : ObjcId) (objc : Objects NSThreadHostObject) : Except String (Objects NSThreadHostObject) := do
  let hostObject ← objc.borrow this
  let objc ← releaseWith nsObjectDealloc hostObject.threadDictionary objc
  pure (objc.deallocObject this)

theorem dealloc_refCount {this : ObjcId} {objc objc' : Objects NSThreadHostObject}
    (h : dealloc this objc = .ok objc') :
    ∃ hostObject, objc.hostObjects this = some hostObject ∧ objc'.refCount this = 0 ∧
      ∀ y, y ≠ this → y ≠ hostObject.threadDictionary → objc'.refCount y = objc.refCount y := by
  simp only [dealloc, except_bind_eq_ok] at h
  obtain ⟨hostObject, hb, objc1, hr, h⟩ := h
  cases h
  refine ⟨hostObject, Objects.borrow_eq_ok.mp hb, Function.update_same _ _ _, fun y hy hd => ?_⟩
  rw [Objects.refCount_deallocObject, Function.update_noteq hy]
  exact refCount_releaseWith_nsObjectDealloc hd hr

/-- `release`, with NSThread's `-dealloc` for an object with an NSThread host object and
NSObject's, which frees the object, for every other one: the `-dealloc` of other classes (the
`NSMutableDictionary` of a thread dictionary, a thread's target and object), which would release
what those objects hold, is not modelled. -/
def release (x : ObjcId) (objc : Objects NSThreadHostObject) : Except String (Objects NSThreadHostObject) :=
  releaseWith (fun y o => if (o.hostObjects y).isSome then dealloc y o else nsObjectDealloc y o) x objc

/-- `+[NSThread currentThread]` on the thread `pthread`. -/
def currentThread (pthread : PThread) (env : Environment) : Except String (ObjcId × Environment) := do
  let env := if (env.nsThreads pthread).isSome then env else
    let (nsThread, env) := allocWithZone env
    { env with nsThreads := Function.update env.nsThreads pthread (some nsThread) }
  let nsThread ← Rust.unwrap (env.nsThreads pthread)
  pure (nsThread, env)

theorem currentThread_of_registered {pthread : PThread} {env : Environment} {t : ObjcId}
    (h : env.nsThreads pthread = some t) : currentThread pthread env = .ok (t, env) := by
  simp only [currentThread, h, Option.isSome_some, if_true]
  rfl

theorem currentThread_eq_ok {pthread : PThread} {env env' : Environment} {t : ObjcId}
    (h : currentThread pthread env = .ok (t, env')) :
    env'.nsThreads pthread = some t ∧ env'.threads = env.threads ∧
      (∀ q, q ≠ pthread → env'.nsThreads q = env.nsThreads q) ∧
      ∀ u, env.nsThreads pthread = some u → t = u ∧ env' = env := by
  cases hp : env.nsThreads pthread with
  | some u =>
    rw [currentThread_of_registered hp] at h
    cases h
    exact ⟨hp, rfl, fun _ _ => rfl, fun _ hu => ⟨by simp_all, rfl⟩⟩
  | none =>
    simp only [currentThread, hp, Option.isSome_none, Bool.false_eq_true, if_false, allocWithZone,
      Function.update_same, Rust.unwrap, bind, Except.bind, pure, Except.pure, Except.ok.injEq, Prod.mk.injEq] at h
    obtain ⟨rfl, rfl⟩ := h
    exact ⟨Function.update_same _ _ _, rfl, fun q hq => Function.update_noteq hq _ _, fun _ hu => by cases hu⟩

theorem currentThread_twice (pthread : PThread) (env : Environment) :
    (currentThread pthread env >>= fun r => currentThread pthread r.2) = currentThread pthread env := by
  cases h : currentThread pthread env with
  | error e => rfl
  | ok r =>
    obtain ⟨t, env'⟩ := r
    exact currentThread_of_registered (currentThread_eq_ok h).1

/-- `-[NSThread initWithTarget:selector:object:]`. -/
def initWithTarget (this target : ObjcId) (selector : SEL) (object : ObjcId) (env : Environment) :
    Except String (ObjcId × Environment) := do
  let objc ← env.objc.borrowMut this fun h => { h with target := target }
  let objc ← retain target objc
  let objc ← objc.borrowMut this fun h => { h with selector := some selector }
  let objc ← objc.borrowMut this fun h => { h with object := object }
  let objc ← retain object objc
  pure (this, { env with objc := objc })

theorem initWithTarget_eq_ok {this target object r : ObjcId} {selector : SEL} {env env' : Environment}
    (h : initWithTarget this target selector object env = .ok (r, env')) :
    r = this ∧ ∃ objc, env' = { env with objc := objc } := by
  simp only [initWithTarget, except_bind_eq_ok] at h
  obtain ⟨_, -, _, -, _, -, _, -, objc, -, h⟩ := h
  cases h
  exact ⟨rfl, objc, rfl⟩

/-- Modelled from the spec: `pthread_create` starts a thread under an identifier that no live
thread has, and does not run it before returning. -/
def pthreadCreate (pthread : PThread) (phase : Phase) (env : Environment) : Environment :=
  { env with threads := Function.update env.threads pthread (some phase) }

/-- `-[NSThread start]`, where `pthread_create` returns `pthread`. The guest function it creates
and the memory it allocates are not modelled. -/
def start (pthread : PThread) (this : ObjcId) (env : Environment) : Except String Environment := do
  let env := pthreadCreate pthread (.pending this) env
  Rust.assert (!(env.nsThreads pthread).isSome)
    "assertion failed: !State::get(env).ns_threads.contains_key(&pthread)"
  pure { env with nsThreads := Function.update env.nsThreads pthread (some this) }

theorem start_eq_ok {pthread : PThread} {this : ObjcId} {env env' : Environment} :
    start pthread this env = .ok env' ↔ env.nsThreads pthread = none ∧
      env' = { env with
        threads := Function.update env.threads pthread (some (.pending this)),
        nsThreads := Function.update env.nsThreads pthread (some this) } := by
  simp only [start, pthreadCreate, except_bind_eq_ok, Rust.assert_eq_ok, Bool.not_eq_true',
    Option.not_isSome, Option.isNone_iff_eq_none]
  constructor
  · rintro ⟨_, hn, h⟩
    exact ⟨hn, (Except.ok.inj h).symm⟩
  · rintro ⟨hn, rfl⟩
    exact ⟨(), hn, rfl⟩

/-- `+[NSThread detachNewThreadSelector:toTarget:withObject:]`. -/
def detachNewThreadSelector (pthread : PThread) (selector : SEL) (target object : ObjcId) (env : Environment) :
    Except String Environment := do
  let (new, env) := allocWithZone env
  let (new, env) ← initWithTarget new target selector object env
  let objc ← env.objc.borrowMut new fun h => { h with owned := true }
  start pthread new { env with objc := objc }

theorem detachNewThreadSelector_eq_ok {pthread : PThread} {selector : SEL} {target object : ObjcId}
    {env env' : Environment} (h : detachNewThreadSelector pthread selector target object env = .ok env') :
    ∃ new objc, env.nsThreads pthread = none ∧
      env' = {
        objc := objc,
        threads := Function.update env.threads pthread (some (.pending new)),
        nsThreads := Function.update env.nsThreads pthread (some new) } := by
  simp only [detachNewThreadSelector, except_bind_eq_ok] at h
  obtain ⟨⟨new, env1⟩, hinit, objc, -, h⟩ := h
  obtain ⟨-, objc1, rfl⟩ := initWithTarget_eq_ok hinit
  obtain ⟨hn, rfl⟩ := start_eq_ok.mp h
  exact ⟨new, objc, hn, rfl⟩

/-- `-[NSThread main]`: the message it sends, whose guest code then runs. -/
def main (this : ObjcId) (env : Environment) : Except String (ObjcId × SEL × ObjcId) := do
  let hostObject ← env.objc.borrow this
  let selector ← Rust.unwrap hostObject.selector
  pure (hostObject.target, selector, hostObject.object)

/-- `-[NSThread threadDictionary]`, which creates the dictionary on first use. -/
def threadDictionary (this : ObjcId) (env : Environment) : Except String (ObjcId × Environment) := do
  let threadDictionary := (← env.objc.borrow this).threadDictionary
  if threadDictionary = nil then
    let (threadDictionary, objc) := env.objc.allocObject none
    let objc ← objc.borrowMut this fun h => { h with threadDictionary := threadDictionary }
    pure (threadDictionary, { env with objc := objc })
  else pure (threadDictionary, env)

theorem threadDictionary_eq_ok {this d : ObjcId} {env env' : Environment}
    (h : threadDictionary this env = .ok (d, env')) : ∃ objc, env' = { env with objc := objc } := by
  simp only [threadDictionary, except_bind_eq_ok] at h
  obtain ⟨_, -, h⟩ := h
  split_ifs at h
  · obtain ⟨objc, -, h⟩ := except_bind_eq_ok.mp h
    cases h
    exact ⟨objc, rfl⟩
  · cases h
    exact ⟨env.objc, rfl⟩

/-- `_touchHLE_NSThreadInvocationHelper` up to `-main`: the class check, then the message
`-main` sends. Its first message, `class`, goes through `crate::objc`, which is not in src/;
here a message to a deallocated object fails, with a text of the model's own. -/
def invocationHelperEnter (nsThreadObj : ObjcId) (env : Environment) : Except String (ObjcId × SEL × ObjcId) := do
  Rust.assert (env.objc.refCount nsThreadObj != 0) "message sent to a deallocated object"
  Rust.assert ((env.objc.hostObjects nsThreadObj).isSome)
    "assertion failed: env.objc.class_is_subclass_of(class, thread_class)"
  main nsThreadObj env

/-- `_touchHLE_NSThreadInvocationHelper` once `-main` has returned, on the thread `pthread`. -/
def invocationHelperExit (pthread : PThread) (nsThreadObj : ObjcId) (env : Environment) :
    Except String Environment := do
  let hostObject ← env.objc.borrow nsThreadObj
  let objc ← release hostObject.object env.objc
  let objc ← release hostObject.target objc
  let res := env.nsThreads pthread
  let env := { env with objc := objc, nsThreads := Function.update env.nsThreads pthread none }
  Rust.assert (res.isSome) "assertion failed: res.is_some()"
  if hostObject.owned then
    let objc ← release nsThreadObj env.objc
    pure { env with objc := objc }
  else pure env

theorem invocationHelperExit_eq_ok {pthread : PThread} {x : ObjcId} {env env' : Environment}
    (h : invocationHelperExit pthread x env = .ok env') :
    env.nsThreads pthread ≠ none ∧
      ∃ objc, env' = { env with objc := objc, nsThreads := Function.update env.nsThreads pthread none } := by
  simp only [invocationHelperExit, except_bind_eq_ok, Rust.assert_eq_ok] at h
  obtain ⟨hostObject, -, _, -, objc, -, _, hres, h⟩ := h
  refine ⟨by simpa [Option.isSome_iff_ne_none] using hres, ?_⟩
  split_ifs at h
  · obtain ⟨objc', -, h⟩ := except_bind_eq_ok.mp h
    cases h
    exact ⟨objc', rfl⟩
  · cases h
    exact ⟨objc, rfl⟩

end TouchHLE.Foundation
