import TouchHLE.Dyld.LazyLink
import Mathlib.Data.List.Nodup
import Mathlib.Logic.Relation

namespace TouchHLE.Dyld

variable {F σ : Type}

def sectionStubs (stubs : Section) : List Stub :=
  match stubs.dyldIndirectSymbolInfo with
  | some info => stubsOf stubs info
  | none => []

/-- Every stub of every loaded binary. -/
def allStubs (bins : List MachO) : List Stub :=
  (bins.filterMap stubSection).flatMap sectionStubs

/-- The external relocations `doNonLazyLinking` resolves through the object runtime. -/
def linksClass (name : String) : Bool :=
  (Rust.stripPrefix "_OBJC_CLASS_$_" name).isSome || (Rust.stripPrefix "_OBJC_METACLASS_$_" name).isSome

/-- What the linker starts from: the host function lists, the loaded binaries, the object
runtime, the address `mem.alloc` returns for the return-to-host routine, and the machine as
the loader left it. -/
structure Loaded (F σ : Type) where
  lists : List (List (String × F))
  bins : List MachO
  objc : ObjC σ
  allocated : VAddr
  mem : Mem
  cpu : Cpu
  objcState : σ

/-- Binaries as the trap-dispatch invariant takes them: every stub matches the template of its
layout; the stub sections are pairwise disjoint and miss the return-to-host routine, and every
lazy-pointer cell lies outside every stub section. -/
structure WellFormed (L : Loaded F σ) : Prop where
  template : ∀ t ∈ allStubs L.bins, ∃ ws, stubInstructions t.entrySize = .ok ws ∧
    wordsMatch L.mem t.start ws = true
  disjoint : (L.bins.filterMap stubSection).Pairwise fun a b =>
    Separate a.addr a.size.toNat b.addr b.size.toNat
  routine : ∀ s ∈ L.bins.filterMap stubSection, Separate L.allocated 8 s.addr s.size.toNat
  lazyPointers : ∀ t ∈ allStubs L.bins, ∀ s ∈ L.bins.filterMap stubSection,
    Separate (laSymbolPtr t.entrySize t.start (L.mem.read t.cell)) 4 s.addr s.size.toNat

/-- No Objective-C class or metaclass reference that `doNonLazyLinking` fills in lies in a stub
section. -/
def ClassRefsOutsideStubs (bins : List MachO) : Prop :=
  ∀ bin ∈ bins, ∀ reloc ∈ bin.externalRelocations, linksClass reloc.2 = true →
    ∀ s ∈ bins.filterMap stubSection, Separate reloc.1 4 s.addr s.size.toNat

/-- One event after initial linking: a trap raised at a stub's start whose word is an SVC other
than return-to-host, handled by `getSvcHandler`, or the CPU executing a word. -/
inductive Step (L : Loaded F σ) : Environment F σ → Environment F σ → Prop
  | trap {env env' : Environment F σ} {t : Stub} {c : BitVec 32} {f : Option F} :
      t ∈ allStubs L.bins → encodeA32Svc c = .ok (env.mem.read t.start) → c ≠ svcReturnToHost →
      getSvcHandler L.lists L.bins t.start c env = .ok (f, env') → Step L env env'
  | exec {env : Environment F σ} (a : VAddr) :
      Step L env { env with cpu := (env.cpu.fetch env.mem a).2 }

/-- The environments of a run: `doInitialLinking` on a fresh linker, then any number of steps. -/
inductive Reachable (L : Loaded F σ) : Environment F σ → Prop
  | init {env : Environment F σ} {warnings : List String} :
      doInitialLinking L.objc L.bins L.allocated ⟨Dyld.new, L.mem, L.cpu, L.objcState⟩ = .ok (env, warnings) →
      Reachable L env
  | step {env env' : Environment F σ} : Reachable L env → Step L env env' → Reachable L env'

theorem mem_sectionStubs {s : Section} {t : Stub} :
    t ∈ sectionStubs s ↔ ∃ info, s.dyldIndirectSymbolInfo = some info ∧ t ∈ stubsOf s info := by
  unfold sectionStubs
  split <;> simp_all

theorem mem_allStubs {bins : List MachO} {t : Stub} :
    t ∈ allStubs bins ↔ ∃ s ∈ bins.filterMap stubSection, ∃ info,
      s.dyldIndirectSymbolInfo = some info ∧ t ∈ stubsOf s info := by
  simp only [allStubs, List.mem_flatMap, mem_sectionStubs]

theorem entrySize_pos {s : Section} {info : DyldIndirectSymbolInfo} {t : Stub} (ht : t ∈ stubsOf s info) :
    0 < t.entrySize.toNat := by
  obtain ⟨i, hi, rfl⟩ := mem_stubsOf.mp ht
  exact (stub_offset hi).1

theorem inRange_start_section {s : Section} {info : DyldIndirectSymbolInfo} {t : Stub}
    (ht : t ∈ stubsOf s info) : inRange s.addr s.size.toNat t.start :=
  inRange_section_of_stub ht (by simpa only [inRange, BitVec.sub_self] using entrySize_pos ht)

theorem stubsOf_nodup (s : Section) (info : DyldIndirectSymbolInfo) : (stubsOf s info).Nodup := by
  refine List.Nodup.map_on (fun i hi j hj h => ?_) (List.nodup_range _)
  rw [List.mem_range] at hi hj
  obtain ⟨hpos, hi'⟩ := stub_offset hi
  have hj' := (stub_offset hj).2
  have h := congrArg (fun t : Stub => (t.start - s.addr).toNat) h
  simp only [add_sub_cancel_left, ofNat_mul_eq, BitVec.toNat_ofNat] at h
  rw [Nat.mod_eq_of_lt (by omega), Nat.mod_eq_of_lt (by omega)] at h
  exact Nat.eq_of_mul_eq_mul_right hpos h

section Geometry

variable {bins : List MachO}
  (hd : (bins.filterMap stubSection).Pairwise fun a b => Separate a.addr a.size.toNat b.addr b.size.toNat)
include hd

theorem separate_of_mem_stubSections {s s' : Section} (hs : s ∈ bins.filterMap stubSection)
    (hs' : s' ∈ bins.filterMap stubSection) (hne : s ≠ s') :
    Separate s.addr s.size.toNat s'.addr s'.size.toNat :=
  hd.forall (fun _ _ h => Separate.symm h) hs hs' hne

theorem allStubs_separate {t t' : Stub} (ht : t ∈ allStubs bins) (ht' : t' ∈ allStubs bins) :
    t = t' ∨ Separate t.start t.entrySize.toNat t'.start t'.entrySize.toNat := by
  obtain ⟨s, hs, info, hinfo, hts⟩ := mem_allStubs.mp ht
  obtain ⟨s', hs', info', hinfo', hts'⟩ := mem_allStubs.mp ht'
  by_cases hss : s = s'
  · subst hss
    obtain rfl : info = info' := Option.some.inj (hinfo.symm.trans hinfo')
    obtain ⟨i, hi, rfl⟩ := mem_stubsOf.mp hts
    obtain ⟨j, hj, rfl⟩ := mem_stubsOf.mp hts'
    by_cases hij : i = j
    · exact .inl (by rw [hij])
    · exact .inr (stub_separate le_rfl (count_mul_le _ _) hi hj hij)
  · exact .inr ((separate_of_mem_stubSections hd hs hs' hss).mono
      (fun _ => inRange_section_of_stub hts) fun _ => inRange_section_of_stub hts')

theorem findStubs_of_mem_allStubs {t : Stub} (ht : t ∈ allStubs bins) {s : Section}
    (hfind : findStubs bins t.start = some s) :
    ∃ info, s.dyldIndirectSymbolInfo = some info ∧ t ∈ stubsOf s info := by
  obtain ⟨s0, hs0, info, hinfo, hts⟩ := mem_allStubs.mp ht
  obtain ⟨hs, hlo, hhi⟩ := findStubs_spec hfind
  by_cases hss : s0 = s
  · exact ⟨info, hss ▸ hinfo, hss ▸ hts⟩
  · refine absurd (inRange_start_section hts) fun h => separate_of_mem_stubSections hd hs0 hs hss _ h ?_
    unfold inRange
    bv_omega

theorem allStubs_nodup : (allStubs bins).Nodup := by
  refine List.nodup_flatMap.mpr ⟨fun s _ => ?_, hd.imp fun {a b} hab t hta htb => ?_⟩
  · unfold sectionStubs
    split
    · exact stubsOf_nodup _ _
    · exact List.nodup_nil
  · obtain ⟨_, _, hta⟩ := mem_sectionStubs.mp hta
    obtain ⟨_, _, htb⟩ := mem_sectionStubs.mp htb
    exact hab _ (inRange_start_section hta) (inRange_start_section htb)

end Geometry

/-- The first two words `setupLazyLinking` leaves in a stub. -/
def Unlinked (mem : Mem) (t : Stub) : Prop :=
  encodeA32Svc svcLazyLink = .ok (mem.read t.start) ∧ mem.read (t.start + 4) = encodeA32Ret

section Region

variable {m m' : Mem} {t : Stub}
  (hb : ∀ x, inRange t.start t.entrySize.toNat x → m'.bytes x = m.bytes x)
include hb

theorem read_eq_of_stub_bytes {o : Nat} (ho : o + 4 ≤ t.entrySize.toNat) :
    m'.read (t.start + BitVec.ofNat 32 o) = m.read (t.start + BitVec.ofNat 32 o) := by
  have := t.entrySize.isLt
  refine Mem.read_congr fun x hx => hb x ?_
  rw [inRange_add_iff (by omega)] at hx
  unfold inRange
  omega

theorem cell_eq_of_stub_bytes (h4 : 4 ≤ t.entrySize.toNat) : m'.read t.cell = m.read t.cell :=
  read_eq_of_stub_bytes hb (by omega)

theorem read_start_eq_of_stub_bytes (h4 : 4 ≤ t.entrySize.toNat) : m'.read t.start = m.read t.start := by
  simpa only [BitVec.add_zero] using read_eq_of_stub_bytes hb (o := 0) (by omega)

theorem Unlinked.of_stub_bytes (h8 : 8 ≤ t.entrySize.toNat) (h : Unlinked m t) : Unlinked m' t := by
  rw [Unlinked, read_start_eq_of_stub_bytes hb (by omega), ← h.2]
  exact ⟨h.1, read_eq_of_stub_bytes hb (o := 4) (by omega)⟩

end Region

theorem inRange_section_of_sectionStubs {s : Section} {t : Stub} {x : VAddr} (ht : t ∈ sectionStubs s)
    (hx : inRange t.start t.entrySize.toNat x) : inRange s.addr s.size.toNat x := by
  obtain ⟨_, _, ht⟩ := mem_sectionStubs.mp ht
  exact inRange_section_of_stub ht hx

theorem exists_section_of_stub {bins : List MachO} {t : Stub} {x : VAddr} (ht : t ∈ allStubs bins)
    (hx : inRange t.start t.entrySize.toNat x) :
    ∃ s ∈ bins.filterMap stubSection, inRange s.addr s.size.toNat x := by
  obtain ⟨s, hs, hts⟩ := List.mem_flatMap.mp ht
  exact ⟨s, hs, inRange_section_of_sectionStubs hts hx⟩

section InitialLinking

variable {objc : ObjC σ}

theorem stubSections_cons (b : MachO) (bins : List MachO) :
    (b :: bins).filterMap stubSection = (stubSection b).toList ++ bins.filterMap stubSection := by
  cases h : stubSection b <;> simp [List.filterMap_cons, h]

theorem allStubs_cons (b : MachO) (bins : List MachO) :
    allStubs (b :: bins) = (stubSection b).toList.flatMap sectionStubs ++ allStubs bins := by
  rw [allStubs, stubSections_cons, List.flatMap_append]
  rfl

theorem setupLazyLinking_frame {bin : MachO} {mem mem' : Mem} (h : setupLazyLinking bin mem = .ok mem')
    {x : VAddr} (hx : ∀ s, stubSection bin = some s → ¬ inRange s.addr s.size.toNat x) :
    mem'.bytes x = mem.bytes x := by
  cases hs : stubSection bin with
  | none =>
    simp only [setupLazyLinking, hs] at h
    cases h
    rfl
  | some s =>
    obtain ⟨info, ws, -, hws, -, hframe⟩ := setupLazyLinking_spec hs h
    obtain ⟨hlen, -⟩ := stubInstructions_length hws
    refine hframe x fun t ht hin => hx s hs (inRange_section_of_stub ht ?_)
    rw [entrySize_of_mem_stubsOf ht]
    unfold inRange at *
    omega

theorem setupLazyLinking_unlinked {bin : MachO} {mem mem' : Mem} (h : setupLazyLinking bin mem = .ok mem')
    {s : Section} (hs : stubSection bin = some s) {t : Stub} (ht : t ∈ sectionStubs s) :
    Unlinked mem' t ∧ mem'.read t.cell = mem.read t.cell := by
  obtain ⟨info, hinfo, ht⟩ := mem_sectionStubs.mp ht
  obtain ⟨info', ws, hinfo', -, hmatch, -⟩ := setupLazyLinking_spec hs h
  obtain rfl : info' = info := Option.some.inj (hinfo'.symm.trans hinfo)
  obtain ⟨h0, h1, -⟩ := lazyWords_reads (hmatch t ht).2
  exact ⟨⟨h0, h1⟩, setupLazyLinking_cell hs h hinfo ht⟩

theorem linkExternalRelocation_bytes (name : String) (acc : σ × Mem × List String) (reloc : VAddr × String)
    {x : VAddr} (hx : linksClass reloc.2 = true → ¬ inRange reloc.1 4 x) :
    (linkExternalRelocation objc name acc reloc).2.1.bytes x = acc.2.1.bytes x := by
  unfold linkExternalRelocation
  split
  · rename_i h
    exact Mem.bytes_write_of_not_inRange (hx (by simp [linksClass, h]))
  · split
    · rename_i h
      exact Mem.bytes_write_of_not_inRange (hx (by simp [linksClass, h]))
    · rfl

theorem foldl_linkExternalRelocation_bytes (name : String) {x : VAddr} :
    ∀ (relocs : List (VAddr × String)) (acc : σ × Mem × List String),
      (∀ reloc ∈ relocs, linksClass reloc.2 = true → ¬ inRange reloc.1 4 x) →
      (relocs.foldl (linkExternalRelocation objc name) acc).2.1.bytes x = acc.2.1.bytes x
  | [], _, _ => rfl
  | r :: rs, acc, h => by
    rw [List.foldl_cons, foldl_linkExternalRelocation_bytes name rs _ fun r' hr' => h r' (.tail _ hr'),
      linkExternalRelocation_bytes name acc r (h r (.head _))]

theorem doNonLazyLinking_mem {bin : MachO} {s : σ} {mem : Mem} {r : σ × Mem × List String}
    (h : doNonLazyLinking objc bin s mem = .ok r) :
    r.2.1 = (bin.externalRelocations.foldl (linkExternalRelocation objc bin.name) (s, mem, [])).2.1 := by
  simp only [doNonLazyLinking] at h
  split at h
  · cases h
    rfl
  · simp only [except_bind_eq_ok] at h
    obtain ⟨_, _, _, _, _, _, _, _, h⟩ := h
    cases h
    rfl

theorem linkBinary_eq_ok {acc r : σ × Mem × List String} {bin : MachO} (h : linkBinary objc acc bin = .ok r) :
    ∃ mem1, setupLazyLinking bin acc.2.1 = .ok mem1 ∧
      r.2.1 = (bin.externalRelocations.foldl (linkExternalRelocation objc bin.name) (acc.1, mem1, [])).2.1 := by
  simp only [linkBinary, except_bind_eq_ok] at h
  obtain ⟨mem1, hsetup, r', hnl, h⟩ := h
  cases h
  exact ⟨mem1, hsetup, doNonLazyLinking_mem (r := r') hnl⟩

theorem foldlM_linkBinary : ∀ {bins : List MachO} {acc r : σ × Mem × List String},
    (bins.filterMap stubSection).Pairwise (fun a b => Separate a.addr a.size.toNat b.addr b.size.toNat) →
    ClassRefsOutsideStubs bins → (∀ t ∈ allStubs bins, 8 ≤ t.entrySize.toNat) →
    bins.foldlM (linkBinary objc) acc = .ok r →
    (∀ t ∈ allStubs bins, Unlinked r.2.1 t ∧ r.2.1.read t.cell = acc.2.1.read t.cell) ∧
    (∀ x, (∀ s ∈ bins.filterMap stubSection, ¬ inRange s.addr s.size.toNat x) →
      (∀ bin ∈ bins, ∀ reloc ∈ bin.externalRelocations, linksClass reloc.2 = true → ¬ inRange reloc.1 4 x) →
      r.2.1.bytes x = acc.2.1.bytes x)
  | [], _, _, _, _, _, h => by
    cases h
    exact ⟨nofun, fun _ _ _ => rfl⟩
  | b :: bins, acc, r, hd, hrel, hes, h => by
    rw [List.foldlM_cons, except_bind_eq_ok] at h
    obtain ⟨acc', hb, h⟩ := h
    obtain ⟨mem1, hsetup, hmem⟩ := linkBinary_eq_ok hb
    rw [stubSections_cons, List.pairwise_append] at hd
    obtain ⟨-, hd', hsep⟩ := hd
    have hsub : ∀ s ∈ bins.filterMap stubSection, s ∈ (b :: bins).filterMap stubSection := fun s hs => by
      rw [stubSections_cons]; exact List.mem_append_right _ hs
    obtain ⟨hstubs, hframe⟩ := foldlM_linkBinary hd'
      (fun bin hbin reloc hr hc s hs => hrel bin (.tail _ hbin) reloc hr hc s (hsub s hs))
      (fun t ht => hes t (by rw [allStubs_cons]; exact List.mem_append_right _ ht)) h
    -- the class references of `b` miss every stub section
    have hb1 : ∀ x, (∃ s ∈ (b :: bins).filterMap stubSection, inRange s.addr s.size.toNat x) →
        acc'.2.1.bytes x = mem1.bytes x := fun x ⟨s, hs, hx⟩ => by
      rw [hmem]
      exact foldl_linkExternalRelocation_bytes _ _ _ fun reloc hr hc hx' =>
        hrel b (.head _) reloc hr hc s hs x hx' hx
    refine ⟨fun t ht => ?_, fun x hx hx' => ?_⟩
    · rw [allStubs_cons, List.mem_append] at ht
      rcases ht with ht | ht
      · obtain ⟨sb, hsb, ht⟩ := List.mem_flatMap.mp ht
        rw [Option.mem_toList] at hsb
        have hsb' : sb ∈ (b :: bins).filterMap stubSection := by
          rw [stubSections_cons, hsb]; exact List.mem_append_left _ (List.mem_singleton_self _)
        have hreg : ∀ x, inRange t.start t.entrySize.toNat x → r.2.1.bytes x = mem1.bytes x := fun x hx => by
          have hx := inRange_section_of_sectionStubs ht hx
          rw [hframe x (fun s hs hx' => hsep sb (by rw [hsb]; exact List.mem_singleton_self _) s hs x hx hx')
            fun bin hbin reloc hr hc hx' => hrel bin (.tail _ hbin) reloc hr hc sb hsb' x hx' hx]
          exact hb1 x ⟨sb, hsb', hx⟩
        obtain ⟨hu, hc⟩ := setupLazyLinking_unlinked hsetup hsb ht
        have h8 := hes t (by rw [allStubs_cons]; exact List.mem_append_left _ (List.mem_flatMap.mpr ⟨sb, by rw [hsb]; exact List.mem_singleton_self _, ht⟩))
        exact ⟨hu.of_stub_bytes hreg h8, (cell_eq_of_stub_bytes hreg (by omega)).trans hc⟩
      · obtain ⟨hu, hc⟩ := hstubs t ht
        obtain ⟨s, hs, hts⟩ := List.mem_flatMap.mp ht
        have h8 := hes t (by rw [allStubs_cons]; exact List.mem_append_right _ ht)
        refine ⟨hu, hc.trans (cell_eq_of_stub_bytes (fun x hx => ?_) (by omega))⟩
        have hx := inRange_section_of_sectionStubs hts hx
        rw [hb1 x ⟨s, hsub s hs, hx⟩]
        exact setupLazyLinking_frame hsetup fun sb hsb hx' =>
          hsep sb (by rw [hsb]; exact List.mem_singleton_self _) s hs x hx' hx
    · rw [hframe x (fun s hs => hx s (hsub s hs)) fun bin hbin => hx' bin (.tail _ hbin), hmem,
        foldl_linkExternalRelocation_bytes _ _ _ (hx' b (.head _))]
      exact setupLazyLinking_frame hsetup fun s hs => hx s (by rw [stubSections_cons, hs]; exact List.mem_append_left _ (by simp))

theorem doInitialLinking_eq_ok {bins : List MachO} {allocated : VAddr} {env env' : Environment F σ}
    {warnings : List String} (h : doInitialLinking objc bins allocated env = .ok (env', warnings)) :
    ∃ acc r, bins.foldlM (linkBinary objc) acc = .ok r ∧
      acc.2.1 = (env.mem.write allocated 0xef000001#32).write (allocated + 4) encodeA32Trap ∧
      env'.mem = r.2.1 ∧ env'.cpu = env.cpu ∧ env'.dyld.linkedHostFunctions = env.dyld.linkedHostFunctions := by
  simp only [doInitialLinking, except_bind_eq_ok] at h
  obtain ⟨-, -, w, hw, -, -, _, -, r, hr, h⟩ := h
  cases Except.ok.inj ((show encodeA32Svc svcReturnToHost = .ok 0xef000001#32 from rfl).symm.trans hw)
  cases h
  exact ⟨_, r, hr, rfl, rfl, rfl, rfl⟩

end InitialLinking

theorem bytes_write_two_words {m : Mem} {a x : VAddr} {v w : BitVec 32} (hx : ¬ inRange a 8 x) :
    ((m.write a v).write (a + 4) w).bytes x = m.bytes x := by
  unfold inRange at hx
  rw [Mem.bytes_write_of_not_inRange, Mem.bytes_write_of_not_inRange] <;> unfold inRange <;> bv_omega

theorem WellFormed.entrySize_ge {L : Loaded F σ} (hwf : WellFormed L) {t : Stub} (ht : t ∈ allStubs L.bins) :
    12 ≤ t.entrySize.toNat := by
  obtain ⟨ws, hws, -⟩ := hwf.template t ht
  rcases stubInstructions_entrySize hws with h | h <;> omega

theorem init_stubs {L : Loaded F σ} (hwf : WellFormed L) (hrel : ClassRefsOutsideStubs L.bins)
    {env : Environment F σ} {warnings : List String}
    (h : doInitialLinking L.objc L.bins L.allocated ⟨Dyld.new, L.mem, L.cpu, L.objcState⟩ = .ok (env, warnings)) :
    env.dyld.linkedHostFunctions = [] ∧ env.cpu = L.cpu ∧
      ∀ t ∈ allStubs L.bins, Unlinked env.mem t ∧ env.mem.read t.cell = L.mem.read t.cell := by
  obtain ⟨acc, r, hfold, hacc, hmem, hcpu, htable⟩ := doInitialLinking_eq_ok h
  obtain ⟨hstubs, -⟩ := foldlM_linkBinary hwf.disjoint hrel (fun t ht => by have := hwf.entrySize_ge ht; omega) hfold
  refine ⟨htable, hcpu, fun t ht => ?_⟩
  obtain ⟨hu, hc⟩ := hstubs t ht
  rw [hmem]
  refine ⟨hu, hc.trans (cell_eq_of_stub_bytes (fun x hx => ?_) (by have := hwf.entrySize_ge ht; omega))⟩
  obtain ⟨s, hs, hts⟩ := List.mem_flatMap.mp ht
  rw [hacc]
  exact bytes_write_two_words fun hx' => hwf.routine s hs x hx' (inRange_section_of_sectionStubs hts hx)

/-- What the host does next in a run: execute the word at an address, or handle a trap raised at
a stub's start. -/
inductive Event
  | exec (a : VAddr)
  | trap (t : Stub)

/-- `Step` as a function: a trap is taken only at a stub whose first word is an SVC other than
return-to-host, and only if `getSvcHandler` handles it. -/
def Loaded.step (L : Loaded F σ) (env : Environment F σ) : Event → Option (Environment F σ)
  | .exec a => some { env with cpu := (env.cpu.fetch env.mem a).2 }
  | .trap t =>
    if t ∈ allStubs L.bins then
      match svcImm (env.mem.read t.start) with
      | some c =>
        if c = svcReturnToHost then none
        else match getSvcHandler L.lists L.bins t.start c env with
          | .ok (_, env') => some env'
          | .error _ => none
      | none => none
    else none

def Loaded.runTrace (L : Loaded F σ) (env : Environment F σ) : List Event → Option (Environment F σ)
  | [] => some env
  | e :: es => (L.step env e).bind fun env' => L.runTrace env' es

/-- Initial linking, then the events `es`, if they all go through. -/
def Loaded.afterTrace (L : Loaded F σ) (es : List Event) : Option (Environment F σ) :=
  match doInitialLinking L.objc L.bins L.allocated ⟨Dyld.new, L.mem, L.cpu, L.objcState⟩ with
  | .ok (env, _) => L.runTrace env es
  | .error _ => none

theorem step_of_step_eq_some {L : Loaded F σ} {env env' : Environment F σ} {e : Event}
    (h : L.step env e = some env') : Step L env env' := by
  cases e with
  | exec a => cases h; exact .exec a
  | trap t =>
    simp only [Loaded.step] at h
    split_ifs at h with ht
    split at h
    · rename_i c hc
      split_ifs at h with hret
      split at h
      · cases h
        exact .trap ht (svcImm_eq_some_iff.mp hc) hret ‹_›
      · cases h
    · cases h

theorem reachable_runTrace {L : Loaded F σ} :
    ∀ {env env' : Environment F σ} {es : List Event}, Reachable L env → L.runTrace env es = some env' →
      Reachable L env'
  | _, _, [], h, he => by cases he; exact h
  | _, _, _ :: _, h, he => by
    obtain ⟨env1, h1, he⟩ := Option.bind_eq_some.mp he
    exact reachable_runTrace (.step h (step_of_step_eq_some h1)) he

theorem reachable_afterTrace {L : Loaded F σ} {es : List Event} {env : Environment F σ}
    (h : L.afterTrace es = some env) : Reachable L env := by
  unfold Loaded.afterTrace at h
  split at h
  · exact reachable_runTrace (.init ‹_›) h
  · cases h

end TouchHLE.Dyld
