import TouchHLE.Dyld.Coherence

namespace TouchHLE.Dyld

open A32

variable {F σ : Type}

/-- What a symbol is bound to: a host function, or an address another binary exports. -/
inductive Target (F : Type)
  | host (f : F)
  | guest (addr : VAddr)
  deriving DecidableEq

/-- The binding lazy linking is there to give a symbol: the host function lists first, then the
exports of every binary but the first. -/
def resolve (lists : List (List (String × F))) (bins : List MachO) (sym : String) : Option (Target F) :=
  match searchLists lists sym with
  | some f => some (.host f)
  | none => ((bins.drop 1).findSome? fun dylib => dylib.exportedSymbols.lookup sym).map .guest

section Resolve

variable {lists : List (List (String × F))} {bins : List MachO} {sym : String}

theorem resolve_eq_guest {addr : VAddr} :
    resolve lists bins sym = some (.guest addr) ↔ searchLists lists sym = none ∧
      (bins.drop 1).findSome? (fun dylib => dylib.exportedSymbols.lookup sym) = some addr := by
  unfold resolve
  cases searchLists lists sym <;> cases (bins.drop 1).findSome? fun dylib => dylib.exportedSymbols.lookup sym <;> simp

theorem resolve_eq_none :
    resolve lists bins sym = none ↔ searchLists lists sym = none ∧
      (bins.drop 1).findSome? (fun dylib => dylib.exportedSymbols.lookup sym) = none := by
  unfold resolve
  cases searchLists lists sym <;> cases (bins.drop 1).findSome? fun dylib => dylib.exportedSymbols.lookup sym <;> simp

end Resolve

/-- The cell a guest link of stub `t` fills, computed as `doLazyLink` does from the data cell the
stub was loaded with. -/
def lazyPointer (L : Loaded F σ) (t : Stub) : VAddr := laSymbolPtr t.entrySize t.start (L.mem.read t.cell)

def GuestResolved (L : Loaded F σ) (env : Environment F σ) : Prop :=
  ∀ t ∈ allStubs L.bins, StubIn L.lists env t .guestLinked →
    ∃ addr, t.symbol.bind (resolve L.lists L.bins) = some (.guest addr)

theorem code_ne_svcReturnToHost {k : Nat} (hk : k + 2 < 2 ^ 32) :
    BitVec.ofNat 32 k + svcLinkedFunctionsBase ≠ svcReturnToHost := fun h => by
  have := congrArg BitVec.toNat h
  rw [toNat_code hk] at this
  exact absurd this (by rw [show svcReturnToHost.toNat = 1 from rfl]; omega)

theorem separate_next_word (p : VAddr) : Separate (p + 4) 4 p 4 :=
  separate_of_toNat (by rw [sub_add_cancel_left]; decide) (by rw [add_sub_cancel_left]; decide)

theorem findStubs_of_stub {bins : List MachO}
    (hend : ∀ s ∈ bins.filterMap stubSection, s.addr.toNat + s.size.toNat < 2 ^ 32) {t : Stub}
    (ht : t ∈ allStubs bins) : ∃ s, findStubs bins t.start = some s := by
  obtain ⟨s, hs, info, -, hts⟩ := mem_allStubs.mp ht
  have hin := inRange_start_section hts
  have he := hend s hs
  unfold inRange at hin
  refine Option.isSome_iff_exists.mp (List.find?_isSome.mpr ⟨s, hs, ?_⟩)
  simp only [Bool.and_eq_true, decide_eq_true_eq]
  constructor <;> bv_omega

theorem doLazyLink_symbol {lists : List (List (String × F))} {bins : List MachO} {stubs : Section}
    {info : DyldIndirectSymbolInfo} {t : Stub} {env : Environment F σ} {sym : String}
    (hfind : findStubs bins t.start = some stubs) (hinfo : stubs.dyldIndirectSymbolInfo = some info)
    (ht : t ∈ stubsOf stubs info) (hsym : t.symbol = some sym) :
    doLazyLink lists bins t.start env = linkSymbol lists bins info t.start sym env := by
  obtain ⟨i, hi, rfl⟩ := mem_stubsOf.mp ht
  rw [doLazyLink_eq hfind hinfo hi]
  rw [Option.join_eq_some] at hsym
  simp [Rust.index, hsym, bind, Except.bind, Rust.unwrap]

theorem WellFormed.of_stubSections {L L' : Loaded F σ} (hwf : WellFormed L)
    (hs : L'.bins.filterMap stubSection = L.bins.filterMap stubSection) (hm : L'.mem = L.mem)
    (ha : L'.allocated = L.allocated) : WellFormed L' := by
  have hst : allStubs L'.bins = allStubs L.bins := by rw [allStubs, hs, allStubs]
  exact ⟨by rw [hst, hm]; exact hwf.template, by rw [hs]; exact hwf.disjoint, by rw [hs, ha]; exact hwf.routine,
    by rw [hst, hs, hm]; exact hwf.lazyPointers⟩

section Link

variable {L : Loaded F σ} (hwf : WellFormed L) {env env' : Environment F σ} {t : Stub}
  (ht : t ∈ allStubs L.bins)
include hwf ht

theorem lazyPointer_separate_stub {t' : Stub} (ht' : t' ∈ allStubs L.bins) :
    Separate (lazyPointer L t) 4 t'.start t'.entrySize.toNat := fun x hx hx' => by
  obtain ⟨s, hs, hxs⟩ := exists_section_of_stub ht' hx'
  exact hwf.lazyPointers t ht s hs x hx hxs

omit hwf in
theorem laSymbolPtr_eq_lazyPointer (hinv : Inv L env) {ws : List (BitVec 32)}
    (hws : stubInstructions t.entrySize = .ok ws) :
    laSymbolPtr t.entrySize t.start (env.mem.read (t.start + BitVec.ofNat 32 (4 * ws.length))) = lazyPointer L t := by
  obtain ⟨hlen, -⟩ := stubInstructions_length hws
  rw [lazyPointer, show t.start + BitVec.ofNat 32 (4 * ws.length) = t.cell by
    rw [Stub.cell, ← hlen, Nat.add_sub_cancel], hinv.cells t ht]

theorem lazyLink_cases (hinv : Inv L env) {f : Option F}
    (h : doLazyLink L.lists L.bins t.start env = .ok (f, env')) :
    ∃ sym, t.symbol = some sym ∧
      ((∃ g w, f = some g ∧ searchLists L.lists sym = some g ∧
        encodeA32Svc (BitVec.ofNat 32 env.dyld.linkedHostFunctions.length + svcLinkedFunctionsBase) = .ok w ∧
        env'.mem = env.mem.write t.start w ∧ env'.mem.read (t.start + 4) = encodeA32Ret ∧
        env'.dyld.returnToHostRoutine = env.dyld.returnToHostRoutine) ∨
      (∃ addr ws, f = none ∧ resolve L.lists L.bins sym = some (.guest addr) ∧
        stubInstructions t.entrySize = .ok ws ∧
        env'.mem = (writeWords env.mem t.start ws).write (lazyPointer L t) addr ∧ env'.dyld = env.dyld)) := by
  obtain ⟨s, hfind⟩ := findStubs_of_doLazyLink h
  obtain ⟨info, hinfo, hts⟩ := findStubs_of_mem_allStubs hwf.disjoint ht hfind
  have hes := entrySize_of_mem_stubsOf hts
  obtain ⟨sym, hsym, ⟨g, w, hg, -, hw, hret, hr⟩ | ⟨addr, ws, hs, ha, hws, hr⟩⟩ := doLazyLink_cases hfind hinfo hts h
  · obtain ⟨rfl, rfl⟩ := Prod.mk.inj hr
    exact ⟨sym, hsym, .inl ⟨g, w, rfl, hg, hw, rfl, hret, rfl⟩⟩
  · obtain ⟨rfl, rfl⟩ := Prod.mk.inj hr
    rw [← hes] at hws ⊢
    exact ⟨sym, hsym, .inr ⟨addr, ws, rfl, resolve_eq_guest.mpr ⟨hs, ha⟩, hws,
      by rw [laSymbolPtr_eq_lazyPointer ht hinv hws], rfl⟩⟩

theorem lazyLink_bytes (hinv : Inv L env) {f : Option F} (h : doLazyLink L.lists L.bins t.start env = .ok (f, env'))
    {x : VAddr} (hx : ¬ inRange t.start (t.entrySize.toNat - 4) x) (hx' : ¬ inRange (lazyPointer L t) 4 x) :
    env'.mem.bytes x = env.mem.bytes x := by
  have h12 := hwf.entrySize_ge ht
  obtain ⟨sym, -, ⟨g, w, -, -, -, hmem, -⟩ | ⟨addr, ws, -, -, hws, hmem, -⟩⟩ := lazyLink_cases hwf ht hinv h
  · rw [hmem]
    exact Mem.bytes_write_of_not_inRange fun h' => hx (by unfold inRange at *; omega)
  · obtain ⟨hlen, -⟩ := stubInstructions_length hws
    rw [hmem, Mem.bytes_write_of_not_inRange hx']
    exact writeWords_bytes_of_not_inRange (by have := t.entrySize.isLt; omega)
      (by rwa [← hlen, Nat.add_sub_cancel] at hx)

end Link

/-- The stub lifecycle. Setup puts the lazy words at every stub of an accepted section, keeps its
data cell and changes nothing outside the instruction words. In every state of a run over
binaries whose lazy pointers all lie outside the stub sections, a guest link puts back every byte
the stub was loaded with, changes nothing outside its instruction words and its lazy pointer, and
so no other stub. -/
theorem stub_lifecycle :
    (∀ {bin : MachO} {stubs : Section} {mem mem1 : Mem}, stubSection bin = some stubs →
      setupLazyLinking bin mem = .ok mem1 → ∃ info, stubs.dyldIndirectSymbolInfo = some info ∧
        (∀ t ∈ stubsOf stubs info,
          encodeA32Svc svcLazyLink = .ok (mem1.read t.start) ∧ mem1.read (t.start + 4) = encodeA32Ret ∧
          (t.entrySize = 16 → mem1.read (t.start + 8) = encodeA32Trap) ∧ mem1.read t.cell = mem.read t.cell) ∧
        ∀ x, (∀ t ∈ stubsOf stubs info, ¬ inRange t.start (t.entrySize.toNat - 4) x) →
          mem1.bytes x = mem.bytes x) ∧
    ∀ {L : Loaded F σ} {env env' : Environment F σ}, WellFormed L → ClassRefsOutsideStubs L.bins →
      Reachable L env → ∀ t ∈ allStubs L.bins, doLazyLink L.lists L.bins t.start env = .ok (none, env') →
        (∀ x, inRange t.start t.entrySize.toNat x → env'.mem.bytes x = L.mem.bytes x) ∧
        (∀ x, ¬ inRange t.start (t.entrySize.toNat - 4) x → ¬ inRange (lazyPointer L t) 4 x →
          env'.mem.bytes x = env.mem.bytes x) ∧
        ∀ t' ∈ allStubs L.bins, t' ≠ t → ∀ x, inRange t'.start t'.entrySize.toNat x →
          env'.mem.bytes x = env.mem.bytes x := by
  refine ⟨fun hs hsetup => ?_, ?_⟩
  · obtain ⟨info, ws, hinfo, hws, hmatch, hframe⟩ := setupLazyLinking_spec hs hsetup
    obtain ⟨hlen, -⟩ := stubInstructions_length hws
    refine ⟨info, hinfo, fun t ht => ?_, fun x hx => hframe x fun t ht => ?_⟩
    · obtain ⟨h0, h1, h2⟩ := lazyWords_reads (hmatch t ht).2
      rw [entrySize_of_mem_stubsOf ht]
      exact ⟨h0, h1, h2, setupLazyLinking_cell hs hsetup hinfo ht⟩
    · simpa only [entrySize_of_mem_stubsOf ht, ← hlen, Nat.add_sub_cancel] using hx t ht
  · intro L env env' hwf hrel h t ht hlink
    have hinv := reachable_inv hwf hrel h
    obtain ⟨-, -, ⟨g, -, hg, -⟩ | ⟨addr, ws, -, -, hws, hmem, -⟩⟩ := lazyLink_cases hwf ht hinv hlink
    · cases hg
    obtain ⟨hlen, -⟩ := stubInstructions_length hws
    have hlt := t.entrySize.isLt
    have hframe := fun x => lazyLink_bytes hwf ht hinv hlink (x := x)
    refine ⟨fun x hx => ?_, hframe, fun t' ht' hne x hx => hframe x ?_ ?_⟩
    · have hx' : ¬ inRange (lazyPointer L t) 4 x := fun h' => lazyPointer_separate_stub hwf ht ht x h' hx
      by_cases hi : inRange t.start (4 * ws.length) x
      · -- an instruction word: the template, both as loaded and as written back
        obtain ⟨ws', hws', hm⟩ := hwf.template t ht
        obtain rfl : ws' = ws := Except.ok.inj (hws'.symm.trans hws)
        rw [hmem, Mem.bytes_write_of_not_inRange hx']
        exact bytes_eq_of_wordsMatch (wordsMatch_writeWords (by omega) env.mem t.start) hm x hi
      · -- the data cell, which no step of a run changes
        rw [hframe x (by rwa [← hlen, Nat.add_sub_cancel]) hx']
        refine Mem.bytes_eq_of_read_eq (hinv.cells t ht) ?_
        rw [Stub.cell, ← hlen, Nat.add_sub_cancel]
        exact inRange_cell (by omega) (by rwa [hlen]) hi
    · exact mt (·.mono (Nat.sub_le _ _)) (not_inRange_of_other hwf ht ht' hne hx)
    · exact fun h' => lazyPointer_separate_stub hwf ht ht' x h' hx

def linkedHostEnv : Environment Nat Unit :=
  (linkedLoaded.afterTrace (linkedTrace.take 3)).getD
    ⟨Dyld.new, linkedLoaded.mem, linkedLoaded.cpu, ()⟩

def linkedGuestEnv : Environment Nat Unit :=
  match doLazyLink linkedLoaded.lists linkedLoaded.bins 0x100c linkedHostEnv with
  | .ok (_, env) => env
  | .error _ => linkedHostEnv

theorem stub_lifecycle_linked :
    (∃ mem1, setupLazyLinking linkedApp linkedLoaded.mem = .ok mem1 ∧
      encodeA32Svc svcLazyLink = .ok (mem1.read 0x100c) ∧ mem1.read 0x1014 = linkedLoaded.mem.read 0x1014) ∧
      (∀ x, inRange 0x100c 12 x → linkedGuestEnv.mem.bytes x = linkedLoaded.mem.bytes x) ∧
      ∀ x, inRange 0x1000 12 x → linkedGuestEnv.mem.bytes x = linkedHostEnv.mem.bytes x := by
  obtain ⟨mem1, hsetup⟩ : ∃ m, setupLazyLinking linkedApp linkedLoaded.mem = .ok m := ⟨_, rfl⟩
  obtain ⟨info, hinfo, hstubs, -⟩ := (stub_lifecycle (F := Nat) (σ := Unit)).1
    (show stubSection linkedApp = some linkedStubs from rfl) hsetup
  cases Option.some.inj hinfo
  obtain ⟨h0, -, -, hcell⟩ := hstubs ⟨0x100c, 12, some "_foo"⟩ (by decide)
  obtain ⟨hstub, -, hother⟩ := stub_lifecycle.2 linked_wellFormed linked_outside
    (reachable_afterTrace (show linkedLoaded.afterTrace (linkedTrace.take 3) = some linkedHostEnv from rfl))
    ⟨0x100c, 12, some "_foo"⟩ (by decide)
    (show doLazyLink linkedLoaded.lists linkedLoaded.bins 0x100c linkedHostEnv = .ok (none, linkedGuestEnv) from rfl)
  exact ⟨⟨mem1, hsetup, h0, hcell⟩, hstub, hother ⟨0x1000, 12, some "_bar"⟩ (by decide) (by decide)⟩

def sharedLoaded : Loaded Nat Unit :=
  { adjacentLoaded with
    mem := (((fooStubMem 0x1014).write 0x100c 0xe59fc000#32).write 0x1010 0xe59cf000#32).write 0x1014 0x3000 }

def sharedEnv₁ : Environment Nat Unit :=
  (sharedLoaded.afterTrace [.exec 0x1000, .trap ⟨0x1000, 12, some "_foo"⟩]).getD
    ⟨Dyld.new, sharedLoaded.mem, sharedLoaded.cpu, ()⟩

def sharedEnv₂ : Environment Nat Unit :=
  match doLazyLink sharedLoaded.lists sharedLoaded.bins 0x100c sharedEnv₁ with
  | .ok (_, env) => env
  | .error _ => sharedEnv₁

/-- Without the proviso on every stub's lazy pointer the second stub is not restored, though its
own lazy pointer lies outside the section. Of two stubs bound to `_foo`, the data cell of the first
points at the data cell of the second, so the first stub's guest link writes that cell before the
second stub's guest link. -/
theorem stub_lifecycle_shared_cell :
    ClassRefsOutsideStubs sharedLoaded.bins ∧ Reachable sharedLoaded sharedEnv₁ ∧
      Separate (lazyPointer sharedLoaded ⟨0x100c, 12, some "_foo"⟩) 4 0x1000 24 ∧
      doLazyLink sharedLoaded.lists sharedLoaded.bins 0x100c sharedEnv₁ = .ok (none, sharedEnv₂) ∧
      sharedEnv₂.mem.read 0x1014 ≠ sharedLoaded.mem.read 0x1014 :=
  ⟨fun bin hbin reloc hr => (by
      simp only [sharedLoaded, adjacentLoaded, List.mem_cons, List.mem_singleton, List.not_mem_nil,
        or_false] at hbin
      rcases hbin with rfl | rfl <;> cases hr),
    reachable_afterTrace (show sharedLoaded.afterTrace [.exec 0x1000, .trap ⟨0x1000, 12, some "_foo"⟩] =
      some sharedEnv₁ from rfl),
    separate_of_toNat (by decide) (by decide), rfl, by decide⟩

section Run

variable {L : Loaded F σ} (hwf : WellFormed L) {env env' : Environment F σ}
include hwf

theorem guestLinked_step (hinv : Inv L env) (h : Step L env env') {t : Stub} (ht : t ∈ allStubs L.bins)
    (hst : StubIn L.lists env' t .guestLinked) :
    StubIn L.lists env t .guestLinked ∨
      (Unlinked env.mem t ∧ doLazyLink L.lists L.bins t.start env = .ok (none, env')) := by
  obtain ⟨hinv', hkeep⟩ := step_inv hwf hinv h
  obtain ⟨st, hst0⟩ := hinv.states t ht
  cases st with
  | guestLinked => exact .inl hst0
  | hostLinked k => cases stubIn_unique hinv'.table (hkeep t ht (.hostLinked k) nofun hst0) hst
  | unlinked =>
    right
    cases h with
    | exec a =>
      cases stubIn_unique hinv'.table
        (show StubIn L.lists { env with cpu := (env.cpu.fetch env.mem a).2 } t .unlinked from hst0) hst
    | @trap _ t0 _ f ht0 hc hc1 hget =>
      rcases trap_cases hinv ht0 hc hc1 hget with ⟨hu0, -, hlink⟩ | ⟨-, rfl⟩
      · obtain ⟨-, -, hother⟩ := lazyLink_inv hwf ht0 hinv hu0 hlink
        by_cases hne : t = t0
        · subst hne
          refine ⟨hst0, ?_⟩
          obtain ⟨sym, -, ⟨g, w, rfl, -, hw, hmem, -⟩ | ⟨-, -, rfl, -⟩⟩ := lazyLink_cases hwf ht hinv hlink
          · obtain ⟨ws, hws, hm⟩ := hst
            have hlt := read_lt_of_template hws hm
            rw [hmem, Mem.read_write_self] at hlt
            have := (encodeA32Svc_eq_ok_iff.mp hw).2
            omega
          · exact hlink
        · cases stubIn_unique hinv'.table (hother t ht hne _ hst0) hst
      · cases stubIn_unique hinv'.table hst0 hst

theorem guestResolved_step (hinv : Inv L env) (hres : GuestResolved L env) (h : Step L env env') :
    GuestResolved L env' := fun t ht hst => by
  rcases guestLinked_step hwf hinv h ht hst with hst0 | ⟨-, hlink⟩
  · exact hres t ht hst0
  · obtain ⟨sym, hsym, ⟨g, w, hg, -⟩ | ⟨addr, ws, -, hr, -⟩⟩ := lazyLink_cases hwf ht hinv hlink
    · cases hg
    · exact ⟨addr, by rw [hsym, Option.some_bind, hr]⟩

variable (hrel : ClassRefsOutsideStubs L.bins)
include hrel

theorem not_guestLinked_init {warnings : List String}
    (h : doInitialLinking L.objc L.bins L.allocated ⟨Dyld.new, L.mem, L.cpu, L.objcState⟩ = .ok (env, warnings))
    {t : Stub} (ht : t ∈ allStubs L.bins) : ¬ StubIn L.lists env t .guestLinked := fun hst =>
  nomatch stubIn_unique (init_inv hwf hrel h).table hst
    (show StubIn L.lists env t .unlinked from ((init_stubs hwf hrel h).2.2 t ht).1)

theorem reachable_guestResolved (h : Reachable L env) : GuestResolved L env := by
  induction h with
  | init h => exact fun t ht hst => absurd hst (not_guestLinked_init hwf hrel h ht)
  | step hr hstep ih => exact guestResolved_step hwf (reachable_inv hwf hrel hr) ih hstep

end Run

section Calls

variable {L : Loaded F σ} {env : Environment F σ} {t : Stub}

end Calls

/-- A stub whose symbol nothing binds stays lazy for the whole run, and every call through it
panics naming the symbol. -/
theorem calls_unresolved {L : Loaded F σ} {env : Environment F σ} {t : Stub} (hwf : WellFormed L)
    (hrel : ClassRefsOutsideStubs L.bins)
    (hend : ∀ s ∈ L.bins.filterMap stubSection, s.addr.toNat + s.size.toNat < 2 ^ 32) (h : Reachable L env)
    (ht : t ∈ allStubs L.bins) {sym : String} (hsym : t.symbol = some sym) (hr : resolve L.lists L.bins sym = none) :
    svcImm (env.mem.read t.start) = some svcLazyLink ∧
      getSvcHandler L.lists L.bins t.start svcLazyLink env = .error ("Call to unimplemented function " ++ sym) := by
  have hinv := reachable_inv hwf hrel h
  obtain ⟨hs, hx⟩ := resolve_eq_none.mp hr
  obtain ⟨st, hst⟩ := hinv.states t ht
  cases st with
  | hostLinked k =>
    obtain ⟨-, -, hk, hget⟩ := hst
    rw [hsym, Option.some_bind, hs, List.getElem?_eq_none_iff] at hget
    omega
  | guestLinked =>
    obtain ⟨addr, hr'⟩ := reachable_guestResolved hwf hrel h t ht hst
    rw [hsym, Option.some_bind, hr] at hr'
    cases hr'
  | unlinked =>
    obtain ⟨s, hfind⟩ := findStubs_of_stub hend ht
    obtain ⟨info, hinfo, hts⟩ := findStubs_of_mem_allStubs hwf.disjoint ht hfind
    refine ⟨svcImm_eq_some_iff.mpr hst.1, ?_⟩
    rw [getSvcHandler, if_pos rfl, doLazyLink_symbol hfind hinfo hts hsym, linkSymbol, hs, hx]

def unboundLoaded : Loaded Nat Unit := { linkedLoaded with bins := [linkedApp] }

def unboundEnv : Environment Nat Unit :=
  (unboundLoaded.afterTrace [.exec 0x1000, .trap ⟨0x1000, 12, some "_bar"⟩, .exec 0x1000]).getD
    ⟨Dyld.new, unboundLoaded.mem, unboundLoaded.cpu, ()⟩

theorem unbound_outside : ClassRefsOutsideStubs unboundLoaded.bins := fun bin hbin =>
  linked_outside bin ((List.mem_singleton.mp hbin).symm ▸ List.mem_cons_self _ _)

theorem calls_unresolved_unbound :
    svcImm (unboundEnv.mem.read 0x100c) = some svcLazyLink ∧
      getSvcHandler unboundLoaded.lists unboundLoaded.bins 0x100c svcLazyLink unboundEnv =
        .error "Call to unimplemented function _foo" :=
  calls_unresolved (t := ⟨0x100c, 12, some "_foo"⟩) (show WellFormed unboundLoaded from
    linked_wellFormed.of_stubSections rfl rfl rfl) unbound_outside (by decide)
    (reachable_afterTrace (show unboundLoaded.afterTrace [.exec 0x1000, .trap ⟨0x1000, 12, some "_bar"⟩,
      .exec 0x1000] = some unboundEnv from rfl)) (by decide) rfl rfl

/-- The return-to-host routine as `doInitialLinking` leaves it: the linker's pointer to it, and
its two words. -/
def RoutineIntact (allocated : VAddr) (env : Environment F σ) : Prop :=
  env.dyld.returnToHostRoutine = some (GuestFunction.fromAddrWithThumbBit allocated) ∧
    encodeA32Svc svcReturnToHost = .ok (env.mem.read allocated) ∧ env.mem.read (allocated + 4) = encodeA32Trap

theorem RoutineIntact.of_bytes {allocated : VAddr} {env env' : Environment F σ} (h : RoutineIntact allocated env)
    (hd : env'.dyld.returnToHostRoutine = env.dyld.returnToHostRoutine)
    (hb : ∀ x, inRange allocated 8 x → env'.mem.bytes x = env.mem.bytes x) : RoutineIntact allocated env' := by
  refine ⟨hd.trans h.1, ?_, ?_⟩
  · rw [Mem.read_congr fun x hx => hb x (inRange_word_of_inRange (n := 1) hx)]
    exact h.2.1
  · rw [Mem.read_congr fun x hx => hb x (inRange_succ_of_inRange (n := 1) hx)]
    exact h.2.2

section Routine

variable {L : Loaded F σ} (hwf : WellFormed L) {env env' : Environment F σ}
  (hclass : ∀ bin ∈ L.bins, ∀ reloc ∈ bin.externalRelocations, linksClass reloc.2 = true →
    Separate reloc.1 4 L.allocated 8)
  (hlazy : ∀ t ∈ allStubs L.bins, Separate (lazyPointer L t) 4 L.allocated 8)
include hwf

theorem routine_separate_stub {t : Stub} (ht : t ∈ allStubs L.bins) :
    Separate L.allocated 8 t.start t.entrySize.toNat := fun x hx hx' => by
  obtain ⟨s, hs, hxs⟩ := exists_section_of_stub ht hx'
  exact hwf.routine s hs x hx hxs

include hclass in
theorem routineIntact_init (hrel : ClassRefsOutsideStubs L.bins) {warnings : List String}
    (h : doInitialLinking L.objc L.bins L.allocated ⟨Dyld.new, L.mem, L.cpu, L.objcState⟩ = .ok (env, warnings)) :
    RoutineIntact L.allocated env := by
  obtain ⟨acc, r, hfold, hacc, hmem, -, -⟩ := doInitialLinking_eq_ok h
  obtain ⟨-, hframe⟩ := foldlM_linkBinary hwf.disjoint hrel (fun t ht => by have := hwf.entrySize_ge ht; omega) hfold
  have hd : env.dyld.returnToHostRoutine = some (GuestFunction.fromAddrWithThumbBit L.allocated) := by
    simp only [doInitialLinking, except_bind_eq_ok] at h
    obtain ⟨-, -, -, -, -, -, _, -, r, -, h⟩ := h
    cases h
    rfl
  have hwords : RoutineIntact L.allocated { env with mem := acc.2.1 } := by
    refine ⟨hd, ?_, ?_⟩
    · rw [hacc, Mem.read_write_of_separate (separate_next_word L.allocated).symm, Mem.read_write_self]
      rfl
    · rw [hacc, Mem.read_write_self]
  refine hwords.of_bytes rfl fun x hx => ?_
  rw [hmem]
  exact hframe x (fun s hs => hwf.routine s hs x hx) fun bin hbin reloc hr hc hx' =>
    hclass bin hbin reloc hr hc x hx' hx

include hlazy in
theorem routineIntact_step (hinv : Inv L env) (hr : RoutineIntact L.allocated env) (h : Step L env env') :
    RoutineIntact L.allocated env' := by
  cases h with
  | exec a => exact hr
  | @trap _ t0 _ f ht0 hc hc1 hget =>
    rcases trap_cases hinv ht0 hc hc1 hget with ⟨-, -, hlink⟩ | ⟨-, rfl⟩
    · have hb : ∀ x, inRange L.allocated 8 x → env'.mem.bytes x = env.mem.bytes x := fun x hx =>
        lazyLink_bytes hwf ht0 hinv hlink (mt (·.mono (Nat.sub_le _ _)) (routine_separate_stub hwf ht0 x hx))
          fun hx' => hlazy t0 ht0 x hx' hx
      obtain ⟨sym, -, ⟨-, -, -, -, -, -, -, hd⟩ | ⟨-, -, -, -, -, -, hd⟩⟩ := lazyLink_cases hwf ht0 hinv hlink
      · exact hr.of_bytes hd hb
      · exact hr.of_bytes (by rw [hd]) hb
    · exact hr

include hclass hlazy in
theorem reachable_routineIntact (hrel : ClassRefsOutsideStubs L.bins) (h : Reachable L env) :
    RoutineIntact L.allocated env := by
  induction h with
  | init h => exact routineIntact_init hwf hclass hrel h
  | step hr hstep ih => exact routineIntact_step hwf hlazy (reachable_inv hwf hrel hr) ih hstep

end Routine

/-- Return-to-host is reserved for its routine. In every state of a run whose class references and
lazy pointers miss the routine, the linker still points at the routine, so the unwrap in
`return_to_host_routine` never fails, the routine still holds `svc #1` and the trap, and no stub's
first word is `svc #1`, so the `unreachable!()` of `get_svc_handler` is never reached from a stub. -/
theorem returnToHost_reserved {L : Loaded F σ} {env : Environment F σ} (hwf : WellFormed L)
    (hrel : ClassRefsOutsideStubs L.bins)
    (hclass : ∀ bin ∈ L.bins, ∀ reloc ∈ bin.externalRelocations, linksClass reloc.2 = true →
      Separate reloc.1 4 L.allocated 8)
    (hlazy : ∀ t ∈ allStubs L.bins, Separate (lazyPointer L t) 4 L.allocated 8) (h : Reachable L env) :
    RoutineIntact L.allocated env ∧ ∀ t ∈ allStubs L.bins, svcImm (env.mem.read t.start) ≠ some svcReturnToHost := by
  have hinv := reachable_inv hwf hrel h
  refine ⟨reachable_routineIntact hwf hclass hlazy hrel h, fun t ht => ?_⟩
  obtain ⟨st, hst⟩ := hinv.states t ht
  cases st with
  | unlinked => rw [svcImm_eq_some_iff.mpr hst.1]; decide
  | guestLinked =>
    obtain ⟨ws, hws, hm⟩ := hst
    rw [svcImm_of_lt (read_lt_of_template hws hm)]
    exact nofun
  | hostLinked k =>
    obtain ⟨h0, -, hk, -⟩ := hst
    rw [svcImm_eq_some_iff.mpr h0, Ne, Option.some.injEq]
    exact code_ne_svcReturnToHost (by have := hinv.table; omega)

theorem returnToHost_reserved_linked :
    RoutineIntact 0x5000 linkedEnv ∧
      ∀ t ∈ allStubs linkedLoaded.bins, svcImm (linkedEnv.mem.read t.start) ≠ some svcReturnToHost :=
  returnToHost_reserved linked_wellFormed linked_outside
    (fun _ hbin _ hr _ => by
      rw [linkedRelocation hbin hr]
      exact separate_of_toNat (by decide) (by decide))
    (fun t ht => by
      rcases mem_allStubs_linked ht with rfl | rfl <;> exact separate_of_toNat (by decide) (by decide))
    linked_reachable

end TouchHLE.Dyld
