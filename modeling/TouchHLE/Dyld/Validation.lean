import TouchHLE.Dyld.Dispatch

namespace TouchHLE.Dyld

variable {F σ : Type}

/-- A stub section `setupLazyLinking` accepts on `mem`: indirect-symbol info with a known stub
layout, a size that is a whole number of stubs, and every stub still holding its template. -/
def StubsAccepted (mem : Mem) (stubs : Section) : Prop :=
  ∃ info ws, stubs.dyldIndirectSymbolInfo = some info ∧ stubInstructions info.entrySize = .ok ws ∧
    stubs.size % info.entrySize = 0 ∧ ∀ t ∈ stubsOf stubs info, wordsMatch mem t.start ws = true

/-- A `__nl_symbol_ptr` section `doNonLazyLinking` accepts: 4-byte pointers filling the section,
each with an entry in the indirect symbol table. -/
def PointersAccepted (ptrs : Section) : Prop :=
  ∃ info, ptrs.dyldIndirectSymbolInfo = some info ∧ info.entrySize = 4 ∧ ptrs.size % 4 = 0 ∧
    (ptrs.size / 4).toNat ≤ info.indirectUndefSymbols.length

/-- What the loop of `doInitialLinking` needs of one binary, with its stubs read from `mem`. -/
def BinaryAccepted (mem : Mem) (bin : MachO) : Prop :=
  (∀ stubs, stubSection bin = some stubs → StubsAccepted mem stubs) ∧
    ∀ ptrs, bin.getSection "__nl_symbol_ptr" = some ptrs → PointersAccepted ptrs

theorem panicMessage_eq_none {α : Type} {x : Except String α} : Rust.panicMessage x = none ↔ ∃ a, x = .ok a := by
  cases x <;> simp [Rust.panicMessage]

/-! ## Lazy stubs -/

theorem setupStubs_ok {addr : VAddr} {es : GuestUSize} {expected : List (BitVec 32)}
    (hexp : 4 * expected.length + 4 = es.toNat) (hlazy : (lazyWords es).length = expected.length) :
    ∀ {n : Nat} {mem : Mem}, n * es.toNat ≤ 2 ^ 32 →
      (∀ i < n, wordsMatch mem (addr + BitVec.ofNat 32 i * es) expected = true) →
      ∃ mem', (List.range n).foldlM (fun m i => setupStub expected es m (addr + BitVec.ofNat 32 i * es))
        mem = .ok mem'
  | 0, mem, _, _ => ⟨mem, rfl⟩
  | n + 1, mem, hn, h => by
    have hn' : n * es.toNat ≤ 2 ^ 32 := le_trans (Nat.mul_le_mul_right _ (Nat.le_succ n)) hn
    obtain ⟨m, hm⟩ := setupStubs_ok hexp hlazy hn' fun i hi => h i (Nat.lt_succ_of_lt hi)
    obtain ⟨-, -, hframe⟩ := setupStubs_spec hexp hlazy hn' hm
    have hmatch : wordsMatch m (addr + BitVec.ofNat 32 n * es) expected = true := by
      rw [wordsMatch_congr (by omega) fun x hx => hframe x fun i hi hi' =>
        stub_separate (by omega) hn (Nat.lt_succ_of_lt hi) (Nat.lt_succ_self n) hi.ne x hi' hx]
      exact h n (Nat.lt_succ_self n)
    rw [List.range_succ, List.foldlM_append]
    exact ⟨_, except_bind_eq_ok.mpr ⟨m, hm, except_bind_eq_ok.mpr ⟨_, setupStub_eq_ok.mpr ⟨hmatch, rfl⟩, rfl⟩⟩⟩

theorem setupLazyLinking_ok_iff {bin : MachO} {mem : Mem} :
    (∃ mem', setupLazyLinking bin mem = .ok mem') ↔
      ∀ stubs, stubSection bin = some stubs → StubsAccepted mem stubs := by
  cases hs : stubSection bin with
  | none => exact ⟨fun _ _ => nofun, fun _ => ⟨mem, by rw [setupLazyLinking, hs]; rfl⟩⟩
  | some stubs =>
    simp only [setupLazyLinking, hs, except_bind_eq_ok, Rust.unwrap_eq_ok, Rust.assert_eq_ok, beq_iff_eq,
      Option.some.injEq, forall_eq']
    constructor
    · rintro ⟨mem', info, hinfo, ws, hws, -, hmod, hloop⟩
      obtain ⟨hexp, hlazy⟩ := stubInstructions_length hws
      obtain ⟨hpre, -, -⟩ := setupStubs_spec hexp hlazy (count_mul_le stubs info.entrySize) hloop
      refine ⟨info, ws, hinfo, hws, hmod, fun t ht => ?_⟩
      obtain ⟨i, hi, rfl⟩ := mem_stubsOf.mp ht
      exact hpre i hi
    · rintro ⟨info, ws, hinfo, hws, hmod, hmatch⟩
      obtain ⟨hexp, hlazy⟩ := stubInstructions_length hws
      obtain ⟨mem', hloop⟩ := setupStubs_ok hexp hlazy (count_mul_le stubs info.entrySize) fun i hi =>
        hmatch _ (mem_stubsOf.mpr ⟨i, hi, rfl⟩)
      exact ⟨mem', info, hinfo, ws, hws, (), hmod, hloop⟩

theorem stubsAccepted_congr {m m' : Mem} {stubs : Section}
    (h : ∀ x, inRange stubs.addr stubs.size.toNat x → m'.bytes x = m.bytes x) :
    StubsAccepted m' stubs ↔ StubsAccepted m stubs := by
  refine exists_congr fun info => exists_congr fun ws => and_congr_right fun _ => and_congr_right fun hws =>
    and_congr_right fun _ => forall₂_congr fun t ht => ?_
  obtain ⟨hexp, -⟩ := stubInstructions_length hws
  rw [wordsMatch_congr (by omega) fun x hx => h x (inRange_section_of_stub ht ?_)]
  rw [entrySize_of_mem_stubsOf ht]
  unfold inRange at *
  omega

/-! ## Non-lazy pointers -/

theorem panicMessage_warnNonLazySymbol (bin : MachO) (ptrs : Section) (info : DyldIndirectSymbolInfo)
    (warnings : List String) (i : Nat) :
    Rust.panicMessage (warnNonLazySymbol bin ptrs info warnings i) =
      if info.indirectUndefSymbols.length ≤ i then
        some ("index out of bounds: the len is " ++ toString info.indirectUndefSymbols.length ++
          " but the index is " ++ toString i)
      else none := by
  unfold warnNonLazySymbol Rust.index
  cases h : info.indirectUndefSymbols[i]? with
  | none => simp [List.getElem?_eq_none_iff.mp h, bind, Except.bind, Rust.panicMessage]
  | some a =>
    have hi : ¬ info.indirectUndefSymbols.length ≤ i := fun hle => by
      rw [List.getElem?_eq_none_iff.mpr hle] at h
      cases h
    cases a <;> simp [hi, bind, Except.bind, pure, Except.pure, Rust.panicMessage]

theorem panicMessage_foldlM_warnNonLazySymbol (bin : MachO) (ptrs : Section) (info : DyldIndirectSymbolInfo) :
    ∀ (n : Nat) (warnings : List String),
      Rust.panicMessage ((List.range n).foldlM (warnNonLazySymbol bin ptrs info) warnings) =
        if info.indirectUndefSymbols.length < n then
          some ("index out of bounds: the len is " ++ toString info.indirectUndefSymbols.length ++
            " but the index is " ++ toString info.indirectUndefSymbols.length)
        else none
  | 0, _ => rfl
  | n + 1, warnings => by
    have ih := panicMessage_foldlM_warnNonLazySymbol bin ptrs info n warnings
    rw [List.range_succ, List.foldlM_append]
    cases hr : (List.range n).foldlM (warnNonLazySymbol bin ptrs info) warnings with
    | error e =>
      rw [hr] at ih
      split_ifs at ih with hlt
      · rw [if_pos (Nat.lt_succ_of_lt hlt)]
        exact ih
      · cases ih
    | ok ws =>
      rw [hr] at ih
      have hn : n ≤ info.indirectUndefSymbols.length := by
        split_ifs at ih with hlt
        · cases ih
        · omega
      show Rust.panicMessage (warnNonLazySymbol bin ptrs info ws n >>= pure) = _
      rw [bind_pure, panicMessage_warnNonLazySymbol]
      by_cases hle : info.indirectUndefSymbols.length ≤ n
      · rw [if_pos hle, if_pos (Nat.lt_succ_of_le hle), Nat.le_antisymm hle hn]
      · rw [if_neg hle, if_neg (by omega)]

theorem doNonLazyLinking_ok_iff {objc : ObjC σ} {bin : MachO} {s : σ} {mem : Mem} :
    (∃ r, doNonLazyLinking objc bin s mem = .ok r) ↔
      ∀ ptrs, bin.getSection "__nl_symbol_ptr" = some ptrs → PointersAccepted ptrs := by
  simp only [doNonLazyLinking]
  split
  · rename_i hp
    rw [hp]
    exact ⟨fun _ _ => nofun, fun _ => ⟨_, rfl⟩⟩
  · rename_i ptrs hp
    simp only [hp, except_bind_eq_ok, Rust.unwrap_eq_ok, Rust.assert_eq_ok, beq_iff_eq, Option.some.injEq,
      forall_eq']
    constructor
    · rintro ⟨r, info, hinfo, -, h4, -, hmod, ws, hloop, -⟩
      have h := congrArg Rust.panicMessage hloop
      rw [panicMessage_foldlM_warnNonLazySymbol, h4] at h
      split_ifs at h with hlt
      · cases h
      · exact ⟨info, hinfo, h4, h4 ▸ hmod, Nat.le_of_not_lt hlt⟩
    · rintro ⟨info, hinfo, h4, hmod, hlen⟩
      have h := panicMessage_foldlM_warnNonLazySymbol bin ptrs info (ptrs.size / info.entrySize).toNat
        (bin.externalRelocations.foldl (linkExternalRelocation objc bin.name) (s, mem, [])).2.2
      rw [if_neg (by rw [h4]; exact Nat.not_lt_of_le hlen)] at h
      obtain ⟨ws, hloop⟩ := panicMessage_eq_none.mp h
      exact ⟨_, info, hinfo, (), h4, (), by rwa [h4], ws, hloop, rfl⟩

/-! ## The initial linking pass -/

section InitialLinking

variable {objc : ObjC σ}

theorem linkBinary_ok_iff {acc : σ × Mem × List String} {bin : MachO} :
    (∃ r, linkBinary objc acc bin = .ok r) ↔ BinaryAccepted acc.2.1 bin := by
  simp only [linkBinary, except_bind_eq_ok]
  constructor
  · rintro ⟨r, mem1, h1, r', h2, -⟩
    exact ⟨setupLazyLinking_ok_iff.mp ⟨mem1, h1⟩, doNonLazyLinking_ok_iff.mp ⟨r', h2⟩⟩
  · rintro ⟨hs, hp⟩
    obtain ⟨mem1, h1⟩ := setupLazyLinking_ok_iff.mpr hs
    obtain ⟨r', h2⟩ : ∃ r, doNonLazyLinking objc bin acc.1 mem1 = .ok r := doNonLazyLinking_ok_iff.mpr hp
    exact ⟨_, mem1, h1, r', h2, rfl⟩

theorem linkBinary_bytes {acc r : σ × Mem × List String} {bin : MachO} (h : linkBinary objc acc bin = .ok r)
    {x : VAddr} (hs : ∀ s, stubSection bin = some s → ¬ inRange s.addr s.size.toNat x)
    (hc : ∀ reloc ∈ bin.externalRelocations, linksClass reloc.2 = true → ¬ inRange reloc.1 4 x) :
    r.2.1.bytes x = acc.2.1.bytes x := by
  obtain ⟨mem1, hsetup, hmem⟩ := linkBinary_eq_ok h
  rw [hmem, foldl_linkExternalRelocation_bytes _ _ _ hc]
  exact setupLazyLinking_frame hsetup hs

theorem BinaryAccepted.congr {m m' : Mem} {bin : MachO}
    (h : ∀ s, stubSection bin = some s → ∀ x, inRange s.addr s.size.toNat x → m'.bytes x = m.bytes x) :
    BinaryAccepted m' bin ↔ BinaryAccepted m bin :=
  and_congr_left' (forall₂_congr fun s hs => stubsAccepted_congr (h s hs))

theorem foldlM_linkBinary_ok_iff : ∀ {bins : List MachO} (acc : σ × Mem × List String),
    (bins.filterMap stubSection).Pairwise (fun a b => Separate a.addr a.size.toNat b.addr b.size.toNat) →
    ClassRefsOutsideStubs bins →
    ((∃ r, bins.foldlM (linkBinary objc) acc = .ok r) ↔ ∀ bin ∈ bins, BinaryAccepted acc.2.1 bin)
  | [], acc, _, _ => ⟨fun _ _ => nofun, fun _ => ⟨acc, rfl⟩⟩
  | b :: bins, acc, hd, hrel => by
    rw [stubSections_cons, List.pairwise_append] at hd
    obtain ⟨-, hd', hsep⟩ := hd
    have hsub : ∀ s ∈ bins.filterMap stubSection, s ∈ (b :: bins).filterMap stubSection := fun s hs => by
      rw [stubSections_cons]; exact List.mem_append_right _ hs
    have ih : ∀ acc' : σ × Mem × List String, (∃ r, bins.foldlM (linkBinary objc) acc' = .ok r) ↔
        ∀ bin ∈ bins, BinaryAccepted acc'.2.1 bin := fun acc' => foldlM_linkBinary_ok_iff acc' hd'
      fun bin hbin reloc hr hc s hs => hrel bin (.tail _ hbin) reloc hr hc s (hsub s hs)
    -- linking `b` leaves the stub sections of the later binaries as they were
    have hkeep : ∀ acc', linkBinary objc acc b = .ok acc' → ∀ bin ∈ bins,
        BinaryAccepted acc'.2.1 bin ↔ BinaryAccepted acc.2.1 bin := fun acc' hb bin hbin =>
      BinaryAccepted.congr fun s hs x hx => linkBinary_bytes hb
        (fun sb hsb hx' => hsep sb (by rw [hsb]; exact List.mem_singleton_self _) s
          (List.mem_filterMap.mpr ⟨bin, hbin, hs⟩) x hx' hx)
        fun reloc hr hc hx' => hrel b (.head _) reloc hr hc s
          (hsub s (List.mem_filterMap.mpr ⟨bin, hbin, hs⟩)) x hx' hx
    rw [List.foldlM_cons, List.forall_mem_cons]
    constructor
    · rintro ⟨r, h⟩
      obtain ⟨acc', hb, h⟩ := except_bind_eq_ok.mp h
      exact ⟨linkBinary_ok_iff.mp ⟨acc', hb⟩, fun bin hbin => (hkeep acc' hb bin hbin).mp ((ih acc').mp ⟨r, h⟩ bin hbin)⟩
    · rintro ⟨hb0, hbins⟩
      obtain ⟨acc', hb⟩ := linkBinary_ok_iff.mpr hb0
      obtain ⟨r, hr⟩ := (ih acc').mpr fun bin hbin => (hkeep acc' hb bin hbin).mpr (hbins bin hbin)
      exact ⟨r, except_bind_eq_ok.mpr ⟨acc', hb, hr⟩⟩

/-- `doInitialLinking` accepts exactly the well-formed loads. On binaries whose stub sections are
disjoint and miss both the return-to-host routine and every class reference, initial linking
succeeds if and only if the linker has no return-to-host routine yet, the routine's address is
an Arm one (bit 0 clear), there is a main binary, and every binary's stubs still hold their
templates and its non-lazy pointers fill their section with an indirect symbol each. -/
theorem doInitialLinking_ok_iff {bins : List MachO} {allocated : VAddr} {env : Environment F σ}
    (hd : (bins.filterMap stubSection).Pairwise fun a b => Separate a.addr a.size.toNat b.addr b.size.toNat)
    (hrel : ClassRefsOutsideStubs bins)
    (hroutine : ∀ s ∈ bins.filterMap stubSection, Separate allocated 8 s.addr s.size.toNat) :
    (∃ r, doInitialLinking objc bins allocated env = .ok r) ↔
      env.dyld.returnToHostRoutine = none ∧ allocated.getLsbD 0 = false ∧ bins ≠ [] ∧
        ∀ bin ∈ bins, BinaryAccepted env.mem bin := by
  have hmem : ∀ bin ∈ bins, BinaryAccepted ((env.mem.write allocated 0xef000001#32).write (allocated + 4)
      encodeA32Trap) bin ↔ BinaryAccepted env.mem bin := fun bin hbin =>
    BinaryAccepted.congr fun s hs x hx => bytes_write_two_words fun hx' =>
      hroutine s (List.mem_filterMap.mpr ⟨bin, hbin, hs⟩) x hx' hx
  simp only [doInitialLinking, except_bind_eq_ok, Rust.assert_eq_ok, Rust.index_eq_ok,
    show encodeA32Svc svcReturnToHost = .ok 0xef000001#32 from rfl, Except.ok.injEq, exists_eq_left',
    Option.isNone_iff_eq_none, Bool.not_eq_true', Cpu.isThumb_eq]
  constructor
  · rintro ⟨r, -, hnone, -, hthumb, bin0, h0, acc, hloop, -⟩
    refine ⟨hnone, hthumb, fun h => by simp [h] at h0, fun bin hbin => (hmem bin hbin).mp ?_⟩
    exact (foldlM_linkBinary_ok_iff _ hd hrel).mp ⟨acc, hloop⟩ bin hbin
  · rintro ⟨hnone, hthumb, hne, hbins⟩
    obtain ⟨bin0, bins', rfl⟩ := List.exists_cons_of_ne_nil hne
    obtain ⟨acc, hloop⟩ := (foldlM_linkBinary_ok_iff (objc.registerHostSelectors
      (objc.registerBinSelectors bin0 env.objc), (env.mem.write allocated 0xef000001#32).write (allocated + 4)
        encodeA32Trap, []) hd hrel).mpr fun bin hbin => (hmem bin hbin).mpr (hbins bin hbin)
    exact ⟨_, (), hnone, (), hthumb, bin0, List.getElem?_cons_zero, acc, hloop, rfl⟩

theorem doInitialLinking_ok_iff_classRef :
    (∃ r, doInitialLinking (classRefLoaded 0x6000).objc (classRefLoaded 0x6000).bins 0x5000
        (⟨Dyld.new, classRefMem, (classRefLoaded 0x6000).cpu, ()⟩ : Environment Nat Unit) = .ok r) ↔
      (Dyld.new : Dyld Nat).returnToHostRoutine = none ∧ (0x5000#32).getLsbD 0 = false ∧
        (classRefLoaded 0x6000).bins ≠ [] ∧ ∀ bin ∈ (classRefLoaded 0x6000).bins, BinaryAccepted classRefMem bin :=
  doInitialLinking_ok_iff (classRef_wellFormed 0x6000).disjoint classRef_outside (classRef_wellFormed 0x6000).routine

end InitialLinking

end TouchHLE.Dyld
