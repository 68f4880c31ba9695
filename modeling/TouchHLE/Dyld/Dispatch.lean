import TouchHLE.Dyld.Invariant
import TouchHLE.Dyld.StubExec

namespace TouchHLE.Dyld

variable {F σ : Type}

section Run

variable {L : Loaded F σ} {env : Environment F σ}

theorem linked_persists (hwf : WellFormed L) {env₁ env₂ : Environment F σ} (hinv : Inv L env₁) {t : Stub}
    (ht : t ∈ allStubs L.bins) {st : StubState} (hne : st ≠ .unlinked) (hst : StubIn L.lists env₁ t st)
    (hrun : Relation.ReflTransGen (Step L) env₁ env₂) : Inv L env₂ ∧ StubIn L.lists env₂ t st := by
  induction hrun with
  | refl => exact ⟨hinv, hst⟩
  | tail _ hstep ih =>
    obtain ⟨hinv', hkeep⟩ := step_inv hwf ih.1 hstep
    exact ⟨hinv', hkeep t ht st hne ih.2⟩

theorem not_lazy_of_linked {lists : List (List (String × F))} {t : Stub}
    (hlen : env.dyld.linkedHostFunctions.length + 2 ≤ 2 ^ 24) :
    ∀ {st : StubState}, st ≠ .unlinked → StubIn lists env t st →
      encodeA32Svc svcLazyLink ≠ .ok (env.mem.read t.start)
  | .unlinked, hne, _ => absurd rfl hne
  | .guestLinked, _, ⟨_, hws, hm⟩ => encodeA32Svc_ne_of_lt (read_lt_of_template hws hm)
  | .hostLinked _, _, ⟨h, _, hk, _⟩ => fun h' => code_ne_svcLazyLink (by omega) (encodeA32Svc_inj h h')

theorem table_lt_of_unlinked (hinv : Inv L env) {t : Stub} (ht : t ∈ allStubs L.bins)
    (hu : Unlinked env.mem t) : env.dyld.linkedHostFunctions.length < (allStubs L.bins).length := by
  have hperm := List.perm_cons_erase ht
  have hlen : (linkedCodes L.bins env.mem).length ≤ ((allStubs L.bins).erase t).length := by
    rw [linkedCodes, (hperm.filterMap _).length_eq, List.filterMap_cons, stubCode_unlinked hu]
    exact List.length_filterMap_le _ _
  rw [← List.length_range env.dyld.linkedHostFunctions.length, ← List.length_map _
    fun k => BitVec.ofNat 32 k + svcLinkedFunctionsBase, ← tableCodes, ← hinv.codes.length_eq]
  rw [hperm.length_eq, List.length_cons]
  omega

theorem linkHostFunction_ne_overflow {f : F} {p : VAddr}
    (hn : env.dyld.linkedHostFunctions.length + 2 < 2 ^ 24) :
    linkHostFunction f p env ≠ .error "called `Result::unwrap()` on an `Err` value: TryFromIntError(())" ∧
      linkHostFunction f p env ≠ .error "assertion failed: imm & 0xff000000 == 0" := by
  have hlt : (BitVec.ofNat 32 env.dyld.linkedHostFunctions.length + svcLinkedFunctionsBase).toNat < 2 ^ 24 := by
    rw [toNat_code (by omega)]
    omega
  simp only [linkHostFunction, Rust.assert, encodeA32Svc_of_lt hlt, bind, Except.bind,
    decide_eq_true (show env.dyld.linkedHostFunctions.length < 2 ^ 32 by omega), if_true]
  split
  · rename_i heq
    split at heq <;> cases heq
    simp
  · simp [pure, Except.pure]

end Run

/-- The trap-dispatch invariant: in every state of a run, every stub is in exactly one of its
three states, and a host-linked stub traps into the table entry for its own symbol. -/
theorem stub_state_unique (hwf : WellFormed L) (hrel : ClassRefsOutsideStubs L.bins) (h : Reachable L env) :
    ∀ t ∈ allStubs L.bins, ∃! st, StubIn L.lists env t st := fun t ht => by
  have hinv := reachable_inv hwf hrel h
  obtain ⟨st, hst⟩ := hinv.states t ht
  exact ⟨st, hst, fun _ h' => stubIn_unique hinv.table h' hst⟩

def linkedStubs : Section := ⟨"__symbol_stub4", 0x1000, 24, some ⟨12, [some "_bar", some "_foo"]⟩⟩

def linkedApp : MachO := ⟨"app", [linkedStubs], [], [(0x6000, "_OBJC_CLASS_$_Foo")]⟩

def linkedLoaded : Loaded Nat Unit where
  lists := [[("_bar", 7)]]
  bins := [linkedApp, fooLibrary]
  objc := ⟨fun _ s => s, fun s => s, fun _ _ s => (0xef000005, s), fun _ s => s, fun _ s => s⟩
  allocated := 0x5000
  mem := (((fooStubMem 0x3000).write 0x100c 0xe59fc000#32).write 0x1010 0xe59cf000#32).write 0x1014 0x3004
  cpu := ⟨fun _ => 0, 0, fun _ => none⟩
  objcState := ()

def linkedTrace : List Event :=
  [.exec 0x1000, .trap ⟨0x1000, 12, some "_bar"⟩, .exec 0x100c, .trap ⟨0x100c, 12, some "_foo"⟩,
    .exec 0x1000, .exec 0x100c]

def linkedEnv : Environment Nat Unit :=
  (linkedLoaded.afterTrace linkedTrace).getD ⟨Dyld.new, linkedLoaded.mem, linkedLoaded.cpu, ()⟩

theorem allStubs_linked :
    allStubs linkedLoaded.bins = [⟨0x1000, 12, some "_bar"⟩, ⟨0x100c, 12, some "_foo"⟩] := rfl

theorem stubSections_linked : linkedLoaded.bins.filterMap stubSection = [linkedStubs] := rfl

theorem mem_allStubs_linked {t : Stub} (ht : t ∈ allStubs linkedLoaded.bins) :
    t = ⟨0x1000, 12, some "_bar"⟩ ∨ t = ⟨0x100c, 12, some "_foo"⟩ := by
  simpa [allStubs_linked] using ht

theorem linkedRelocation {bin : MachO} (hbin : bin ∈ linkedLoaded.bins) {reloc : VAddr × String}
    (hr : reloc ∈ bin.externalRelocations) : reloc = (0x6000, "_OBJC_CLASS_$_Foo") := by
  simp only [linkedLoaded, List.mem_cons, List.mem_singleton, List.not_mem_nil, or_false] at hbin
  rcases hbin with rfl | rfl
  · exact List.mem_singleton.mp hr
  · cases hr

theorem linked_wellFormed : WellFormed linkedLoaded where
  template t ht := by rcases mem_allStubs_linked ht with rfl | rfl <;> exact ⟨_, rfl, by decide⟩
  disjoint := List.pairwise_singleton _ _
  routine s hs := by
    rw [stubSections_linked, List.mem_singleton] at hs
    subst hs
    exact separate_of_toNat (by decide) (by decide)
  lazyPointers t ht s hs := by
    rw [stubSections_linked, List.mem_singleton] at hs
    subst hs
    rcases mem_allStubs_linked ht with rfl | rfl <;> exact separate_of_toNat (by decide) (by decide)

theorem linked_outside : ClassRefsOutsideStubs linkedLoaded.bins := by
  intro bin hbin reloc hr _ s hs
  rw [stubSections_linked, List.mem_singleton] at hs
  subst hs
  obtain rfl := linkedRelocation hbin hr
  exact separate_of_toNat (by decide) (by decide)

theorem linked_reachable : Reachable linkedLoaded linkedEnv :=
  reachable_afterTrace (show linkedLoaded.afterTrace linkedTrace = some linkedEnv from rfl)

theorem stub_state_unique_linked :
    (∃! st, StubIn linkedLoaded.lists linkedEnv ⟨0x1000, 12, some "_bar"⟩ st) ∧
      ∃! st, StubIn linkedLoaded.lists linkedEnv ⟨0x100c, 12, some "_foo"⟩ st :=
  ⟨stub_state_unique linked_wellFormed linked_outside linked_reachable _ (by decide),
    stub_state_unique linked_wellFormed linked_outside linked_reachable _ (by decide)⟩

def classRefStubs : Section := ⟨"__symbol_stub4", 0x1000, 12, some ⟨12, [some "_foo"]⟩⟩

def classRefMem : Mem :=
  (((Mem.mk fun _ => 0).write 0x1000 0xe59fc000#32).write 0x1004 0xe59cf000#32).write 0x1008 0x3000

def classRefApp (ref : VAddr) : MachO := ⟨"app", [classRefStubs], [], [(ref, "_OBJC_CLASS_$_Foo")]⟩

def classRefLoaded (ref : VAddr) : Loaded Nat Unit where
  lists := []
  bins := [classRefApp ref, fooLibrary]
  objc := ⟨fun _ s => s, fun s => s, fun _ _ s => (0xef000005, s), fun _ s => s, fun _ s => s⟩
  allocated := 0x5000
  mem := classRefMem
  cpu := ⟨fun _ => 0, 0, fun _ => none⟩
  objcState := ()

def classRefEnv (ref : VAddr) : Environment Nat Unit :=
  match doInitialLinking (classRefLoaded ref).objc (classRefLoaded ref).bins (classRefLoaded ref).allocated
      ⟨Dyld.new, (classRefLoaded ref).mem, (classRefLoaded ref).cpu, ()⟩ with
  | .ok (env, _) => env
  | .error _ => ⟨Dyld.new, (classRefLoaded ref).mem, (classRefLoaded ref).cpu, ()⟩

theorem stubSections_classRef (ref : VAddr) :
    (classRefLoaded ref).bins.filterMap stubSection = [classRefStubs] := rfl

theorem allStubs_classRef (ref : VAddr) : allStubs (classRefLoaded ref).bins = [⟨0x1000, 12, some "_foo"⟩] := rfl

theorem classRef_wellFormed (ref : VAddr) : WellFormed (classRefLoaded ref) where
  template t ht := by
    rw [allStubs_classRef, List.mem_singleton] at ht
    subst ht
    exact ⟨_, rfl, (by decide : wordsMatch classRefMem 0x1000 symbolStubInstructions = true)⟩
  disjoint := by
    rw [stubSections_classRef]
    exact List.pairwise_singleton _ _
  routine s hs := by
    rw [stubSections_classRef, List.mem_singleton] at hs
    subst hs
    show Separate 0x5000 8 0x1000 12
    exact separate_of_toNat (by decide) (by decide)
  lazyPointers t ht s hs := by
    rw [allStubs_classRef, List.mem_singleton] at ht
    rw [stubSections_classRef, List.mem_singleton] at hs
    subst ht hs
    show Separate (laSymbolPtr 12 0x1000 (classRefMem.read 0x1008)) 4 0x1000 12
    rw [show laSymbolPtr 12 0x1000 (classRefMem.read 0x1008) = 0x3000 by decide]
    exact separate_of_toNat (by decide) (by decide)

theorem classRef_outside : ClassRefsOutsideStubs (classRefLoaded 0x6000).bins := by
  intro bin hbin reloc hr _ s hs
  rw [stubSections_classRef, List.mem_singleton] at hs
  subst hs
  simp only [classRefLoaded, List.mem_cons, List.mem_singleton, List.not_mem_nil, or_false] at hbin
  rcases hbin with rfl | rfl
  · rw [classRefApp, List.mem_singleton] at hr
    subst hr
    exact separate_of_toNat (by decide) (by decide)
  · cases hr

theorem classRef_at_stub_reachable : Reachable (classRefLoaded 0x1000) (classRefEnv 0x1000) :=
  @Reachable.init _ _ _ _ [] rfl

/-- Without the proviso the invariant fails right after initial linking. The object runtime
resolves every class to an address that reads as `svc #5`; the class reference at the stub's start
receives it, and the stub is in no state. -/
theorem stub_state_class_ref_at_stub :
    WellFormed (classRefLoaded 0x1000) ∧ Reachable (classRefLoaded 0x1000) (classRefEnv 0x1000) ∧
      ∃ t ∈ allStubs (classRefLoaded 0x1000).bins,
        ¬ ∃ st, StubIn (classRefLoaded 0x1000).lists (classRefEnv 0x1000) t st := by
  refine ⟨classRef_wellFormed 0x1000, classRef_at_stub_reachable, _,
    (allStubs_classRef 0x1000).symm ▸ List.mem_singleton_self _, ?_⟩
  have hw : (classRefEnv 0x1000).mem.read 0x1000 = 0xef000005#32 := by decide
  rintro ⟨st, hst⟩
  cases st with
  | unlinked =>
    have := Except.ok.inj (encodeA32Svc_svcLazyLink.symm.trans (hw ▸ hst.1))
    exact absurd this (by decide)
  | guestLinked =>
    obtain ⟨ws, hws, hm⟩ := hst
    rcases stubInstructions_eq_ok.mp hws with ⟨-, rfl⟩ | ⟨h16, -⟩
    · exact absurd hm (by decide)
    · exact absurd h16 (by decide)
  | hostLinked k =>
    have hk := hst.2.2.1
    have h0 : (classRefEnv 0x1000).dyld.linkedHostFunctions.length = 0 := rfl
    omega

section Codes

variable {L : Loaded F σ} {env : Environment F σ}

/-- Trap codes are allocated once per stub and never shared: the codes the stubs carry are
those of the table, a resolved stub never traps into the lazy linker again, the table never
outgrows the stubs, and below `2 ^ 24 - 2` stubs the host path never overflows. -/
theorem trap_codes_allocated_once (hwf : WellFormed L) (hrel : ClassRefsOutsideStubs L.bins)
    (h : Reachable L env) :
    (linkedCodes L.bins env.mem).Perm (tableCodes env.dyld.linkedHostFunctions.length) ∧
    env.dyld.linkedHostFunctions.length ≤ (allStubs L.bins).length ∧
    (∀ t ∈ allStubs L.bins, encodeA32Svc svcLazyLink = .ok (env.mem.read t.start) →
      ∀ f env₁, getSvcHandler L.lists L.bins t.start svcLazyLink env = .ok (f, env₁) →
      ∀ env₂, Relation.ReflTransGen (Step L) env₁ env₂ →
        encodeA32Svc svcLazyLink ≠ .ok (env₂.mem.read t.start)) ∧
    ((allStubs L.bins).length < 2 ^ 24 - 2 → ∀ t ∈ allStubs L.bins,
      encodeA32Svc svcLazyLink = .ok (env.mem.read t.start) → ∀ f : F,
      linkHostFunction f t.start env ≠ .error "called `Result::unwrap()` on an `Err` value: TryFromIntError(())" ∧
      linkHostFunction f t.start env ≠ .error "assertion failed: imm & 0xff000000 == 0") := by
  have hinv := reachable_inv hwf hrel h
  refine ⟨hinv.codes, ?_, fun t ht hc f env₁ hget env₂ hrun => ?_, fun htot t ht hc f => ?_⟩
  · have := hinv.codes.length_eq
    rw [tableCodes, List.length_map, List.length_range] at this
    exact this ▸ List.length_filterMap_le _ _
  · rcases trap_cases hinv ht hc (by decide) hget with ⟨hu, -, hlink⟩ | ⟨h0, -⟩
    · obtain ⟨hinv₁, ⟨st, hne, hst⟩, -⟩ := lazyLink_inv hwf ht hinv hu hlink
      obtain ⟨hinv₂, hst₂⟩ := linked_persists hwf hinv₁ ht hne hst hrun
      exact not_lazy_of_linked hinv₂.table hne hst₂
    · exact absurd rfl h0
  · have := table_lt_of_unlinked hinv ht (unlinked_of_lazy_word hinv ht hc)
    exact linkHostFunction_ne_overflow (by omega)

end Codes

theorem trap_codes_allocated_once_linked :
    (linkedCodes linkedLoaded.bins linkedEnv.mem).Perm (tableCodes linkedEnv.dyld.linkedHostFunctions.length) ∧
      linkedEnv.dyld.linkedHostFunctions.length ≤ (allStubs linkedLoaded.bins).length ∧
      (∀ t ∈ allStubs linkedLoaded.bins, encodeA32Svc svcLazyLink = .ok (linkedEnv.mem.read t.start) →
        ∀ f env₁, getSvcHandler linkedLoaded.lists linkedLoaded.bins t.start svcLazyLink linkedEnv = .ok (f, env₁) →
        ∀ env₂, Relation.ReflTransGen (Step linkedLoaded) env₁ env₂ →
          encodeA32Svc svcLazyLink ≠ .ok (env₂.mem.read t.start)) ∧
      ((allStubs linkedLoaded.bins).length < 2 ^ 24 - 2 → ∀ t ∈ allStubs linkedLoaded.bins,
        encodeA32Svc svcLazyLink = .ok (linkedEnv.mem.read t.start) → ∀ f : Nat,
        linkHostFunction f t.start linkedEnv ≠
            .error "called `Result::unwrap()` on an `Err` value: TryFromIntError(())" ∧
          linkHostFunction f t.start linkedEnv ≠ .error "assertion failed: imm & 0xff000000 == 0") :=
  trap_codes_allocated_once linked_wellFormed linked_outside linked_reachable

/-- Without the proviso the codes and the table disagree right after initial linking: the stub
carries code 5 while the table is empty. -/
theorem trap_codes_class_ref_at_stub :
    WellFormed (classRefLoaded 0x1000) ∧ Reachable (classRefLoaded 0x1000) (classRefEnv 0x1000) ∧
      ¬ (linkedCodes (classRefLoaded 0x1000).bins (classRefEnv 0x1000).mem).Perm
        (tableCodes (classRefEnv 0x1000).dyld.linkedHostFunctions.length) :=
  ⟨classRef_wellFormed 0x1000, classRef_at_stub_reachable, fun h => absurd h.length_eq (by decide)⟩


end TouchHLE.Dyld
