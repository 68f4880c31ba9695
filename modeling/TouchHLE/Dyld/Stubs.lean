import TouchHLE.Dyld.Linker

namespace TouchHLE.Dyld

theorem inRange_add_iff {addr x : VAddr} {o n : Nat} (h : o + n ≤ 2 ^ 32) :
    inRange (addr + BitVec.ofNat 32 o) n x ↔ o ≤ (x - addr).toNat ∧ (x - addr).toNat < o + n := by
  unfold inRange
  rw [sub_add_eq_sub_sub]
  generalize x - addr = d
  rw [BitVec.toNat_sub, BitVec.toNat_ofNat]
  have hd := d.isLt
  rcases Nat.lt_or_ge o (2 ^ 32) with ho | ho
  · rw [Nat.mod_eq_of_lt ho]
    constructor <;> intro <;> omega
  · omega

theorem ofNat_mul_eq (i : Nat) (es : BitVec 32) :
    BitVec.ofNat 32 i * es = BitVec.ofNat 32 (i * es.toNat) := by
  apply BitVec.eq_of_toNat_eq
  simp [BitVec.toNat_mul, Nat.mod_mul_mod]

theorem add_ofNat_add (p : VAddr) (a b : Nat) :
    p + BitVec.ofNat 32 a + BitVec.ofNat 32 b = p + BitVec.ofNat 32 (a + b) := by
  rw [add_assoc, BitVec.ofNat_add]

theorem inRange_succ_of_inRange {p x : VAddr} {n : Nat} (h : inRange (p + 4) (4 * n) x) : inRange p (4 * n + 4) x := by
  unfold inRange at *
  bv_omega

theorem inRange_word_of_inRange {p x : VAddr} {n : Nat} (h : inRange p 4 x) : inRange p (4 * n + 4) x := by
  unfold inRange at *
  omega

theorem writeWords_bytes_of_not_inRange {ws : List (BitVec 32)} (hn : 4 * ws.length ≤ 2 ^ 32)
    {m : Mem} {p x : VAddr} (hx : ¬ inRange p (4 * ws.length) x) :
    (writeWords m p ws).bytes x = m.bytes x := by
  induction ws generalizing m p with
  | nil => rfl
  | cons w ws ih =>
    rw [List.length_cons, Nat.mul_succ] at hn hx
    rw [writeWords, ih (by omega) fun h => hx (inRange_succ_of_inRange h),
      Mem.bytes_write_of_not_inRange fun h => hx (inRange_word_of_inRange h)]

theorem not_inRange_tail {p x : VAddr} {n : Nat} (hn : 4 * n + 4 ≤ 2 ^ 32) (hx : inRange p 4 x) :
    ¬ inRange (p + 4) (4 * n) x := by
  unfold inRange at *
  bv_omega

theorem wordsMatch_congr {ws : List (BitVec 32)} (hn : 4 * ws.length ≤ 2 ^ 32) {m m' : Mem} {p : VAddr}
    (h : ∀ x, inRange p (4 * ws.length) x → m.bytes x = m'.bytes x) :
    wordsMatch m p ws = wordsMatch m' p ws := by
  induction ws generalizing p with
  | nil => rfl
  | cons w ws ih =>
    rw [List.length_cons, Nat.mul_succ] at hn h
    rw [wordsMatch, wordsMatch, Mem.read_congr fun x hx => h x (inRange_word_of_inRange hx),
      ih (by omega) fun x hx => h x (inRange_succ_of_inRange hx)]

theorem wordsMatch_writeWords {ws : List (BitVec 32)} (hn : 4 * ws.length ≤ 2 ^ 32) (m : Mem) (p : VAddr) :
    wordsMatch (writeWords m p ws) p ws = true := by
  induction ws generalizing m p with
  | nil => rfl
  | cons w ws ih =>
    rw [List.length_cons, Nat.mul_succ] at hn
    have hw : (writeWords (m.write p w) (p + 4) ws).read p = w := by
      rw [Mem.read_congr fun x hx => writeWords_bytes_of_not_inRange (by omega) (not_inRange_tail hn hx)]
      exact Mem.read_write_self m p w
    simp only [writeWords, wordsMatch, hw, beq_self_eq_true, ih (by omega), Bool.and_self]

/-- The words `setupLazyLinking` leaves at the start of a stub. -/
def lazyWords (entrySize : GuestUSize) : List (BitVec 32) :=
  if entrySize = 16 then [0xef000000#32, encodeA32Ret, encodeA32Trap] else [0xef000000#32, encodeA32Ret]

theorem encodeA32Svc_svcLazyLink : encodeA32Svc svcLazyLink = .ok 0xef000000#32 := rfl

theorem setupStub_eq_ok {expected : List (BitVec 32)} {es : GuestUSize} {mem mem' : Mem} {p : VAddr} :
    setupStub expected es mem p = .ok mem' ↔
      wordsMatch mem p expected = true ∧ mem' = writeWords mem p (lazyWords es) := by
  simp only [setupStub, except_bind_eq_ok, Rust.assert_eq_ok, encodeA32Svc_svcLazyLink]
  constructor
  · rintro ⟨_, hm, _, ⟨⟩, ⟨⟩⟩
    refine ⟨hm, ?_⟩
    unfold lazyWords
    split <;> simp [writeWords, add_assoc]
  · rintro ⟨hm, rfl⟩
    refine ⟨(), hm, _, rfl, ?_⟩
    unfold lazyWords
    split <;> simp [writeWords, add_assoc] <;> rfl

theorem inRange_stub_iff {addr x : VAddr} {es : GuestUSize} {i L : Nat} (hi : i * es.toNat + L ≤ 2 ^ 32) :
    inRange (addr + BitVec.ofNat 32 i * es) L x ↔
      i * es.toNat ≤ (x - addr).toNat ∧ (x - addr).toNat < i * es.toNat + L := by
  rw [ofNat_mul_eq]
  exact inRange_add_iff hi

theorem stub_le_of_lt {i n e : Nat} (hi : i < n) : i * e + e ≤ n * e := by
  have := Nat.mul_le_mul_right e (Nat.succ_le_of_lt hi)
  rwa [Nat.succ_mul] at this

theorem stub_separate {addr : VAddr} {es : GuestUSize} {i j n L : Nat} (hL : L ≤ es.toNat)
    (hn : n * es.toNat ≤ 2 ^ 32) (hi : i < n) (hj : j < n) (hij : i ≠ j) :
    Separate (addr + BitVec.ofNat 32 i * es) L (addr + BitVec.ofNat 32 j * es) L := by
  intro x hx hy
  have hi' := stub_le_of_lt (e := es.toNat) hi
  have hj' := stub_le_of_lt (e := es.toNat) hj
  rw [inRange_stub_iff (by omega)] at hx hy
  rcases Nat.lt_or_gt_of_ne hij with h | h
  · have := stub_le_of_lt (e := es.toNat) h
    omega
  · have := stub_le_of_lt (e := es.toNat) h
    omega

theorem setupStubs_spec {addr : VAddr} {es : GuestUSize} {expected : List (BitVec 32)}
    (hexp : 4 * expected.length + 4 = es.toNat) (hlazy : (lazyWords es).length = expected.length) :
    ∀ {n : Nat} {mem mem' : Mem}, n * es.toNat ≤ 2 ^ 32 →
      (List.range n).foldlM (fun m i => setupStub expected es m (addr + BitVec.ofNat 32 i * es)) mem =
        .ok mem' →
      (∀ i < n, wordsMatch mem (addr + BitVec.ofNat 32 i * es) expected = true) ∧
      (∀ i < n, wordsMatch mem' (addr + BitVec.ofNat 32 i * es) (lazyWords es) = true) ∧
      (∀ x, (∀ i < n, ¬ inRange (addr + BitVec.ofNat 32 i * es) (4 * expected.length) x) →
        mem'.bytes x = mem.bytes x)
  | 0, mem, mem', _, h => by
    cases h
    exact ⟨nofun, nofun, fun _ _ => rfl⟩
  | n + 1, mem, mem', hn, h => by
    rw [List.range_succ, List.foldlM_append, except_bind_eq_ok] at h
    obtain ⟨m, hm, hlast⟩ := h
    simp only [List.foldlM_cons, List.foldlM_nil, except_bind_eq_ok] at hlast
    obtain ⟨m', hstub, hpure⟩ := hlast
    cases hpure
    rw [setupStub_eq_ok] at hstub
    obtain ⟨hmatch, rfl⟩ := hstub
    have hn' : n * es.toNat ≤ 2 ^ 32 := le_trans (Nat.mul_le_mul_right _ (Nat.le_succ n)) hn
    obtain ⟨hpre, hpost, hframe⟩ := setupStubs_spec hexp hlazy hn' hm
    have hsep : ∀ i < n, Separate (addr + BitVec.ofNat 32 i * es) (4 * expected.length)
        (addr + BitVec.ofNat 32 n * es) (4 * expected.length) := fun i hi =>
      stub_separate (by omega) hn (by omega) (by omega) (by omega)
    have hw : 4 * (lazyWords es).length ≤ 2 ^ 32 := by rw [hlazy]; omega
    refine ⟨fun i hi => ?_, fun i hi => ?_, fun x hx => ?_⟩
    · rcases Nat.lt_succ_iff_lt_or_eq.mp hi with hi | rfl
      · exact hpre i hi
      · rw [wordsMatch_congr (by omega) fun x hx =>
          (hframe x fun j hj hj' => hsep j hj x hj' hx).symm]
        exact hmatch
    · rcases Nat.lt_succ_iff_lt_or_eq.mp hi with hi | rfl
      · rw [wordsMatch_congr hw fun x hx => writeWords_bytes_of_not_inRange hw
          (by rw [hlazy]; exact hsep i hi x (by rwa [← hlazy]))]
        exact hpost i hi
      · exact wordsMatch_writeWords hw _ _
    · rw [writeWords_bytes_of_not_inRange hw (by rw [hlazy]; exact hx n (Nat.lt_succ_self n)),
        hframe x fun i hi => hx i (Nat.lt_succ_of_lt hi)]

/-- A stub of a loaded binary: where it starts, its layout, and the symbol bound to it. -/
structure Stub where
  start : VAddr
  entrySize : GuestUSize
  symbol : Option String
  deriving DecidableEq

def stubsOf (stubs : Section) (info : DyldIndirectSymbolInfo) : List Stub :=
  (List.range (stubs.size / info.entrySize).toNat).map fun i =>
    ⟨stubs.addr + BitVec.ofNat 32 i * info.entrySize, info.entrySize, info.indirectUndefSymbols[i]?.join⟩

/-- The trailing data cell of a stub. -/
def Stub.cell (t : Stub) : VAddr := t.start + BitVec.ofNat 32 (t.entrySize.toNat - 4)

theorem mem_stubsOf {stubs : Section} {info : DyldIndirectSymbolInfo} {t : Stub} :
    t ∈ stubsOf stubs info ↔ ∃ i < (stubs.size / info.entrySize).toNat,
      t = ⟨stubs.addr + BitVec.ofNat 32 i * info.entrySize, info.entrySize, info.indirectUndefSymbols[i]?.join⟩ := by
  simp only [stubsOf, List.mem_map, List.mem_range, eq_comm]

theorem count_mul_le (stubs : Section) (es : GuestUSize) :
    (stubs.size / es).toNat * es.toNat ≤ 2 ^ 32 := by
  rw [BitVec.toNat_udiv]
  exact le_trans (Nat.div_mul_le_self _ _) (le_of_lt stubs.size.isLt)

theorem stubInstructions_eq_ok {es : GuestUSize} {ws : List (BitVec 32)} :
    stubInstructions es = .ok ws ↔
      (es = 12 ∧ ws = symbolStubInstructions) ∨ (es = 16 ∧ ws = picSymbolStubInstructions) := by
  unfold stubInstructions
  split
  · simp_all [eq_comm]
  · split <;> simp_all [eq_comm]

theorem stubInstructions_length {es : GuestUSize} {ws : List (BitVec 32)} (h : stubInstructions es = .ok ws) :
    4 * ws.length + 4 = es.toNat ∧ (lazyWords es).length = ws.length := by
  rcases stubInstructions_eq_ok.mp h with ⟨rfl, rfl⟩ | ⟨rfl, rfl⟩ <;> decide

theorem stubInstructions_entrySize {es : GuestUSize} {ws : List (BitVec 32)} (h : stubInstructions es = .ok ws) :
    es.toNat = 12 ∨ es.toNat = 16 := by
  rcases stubInstructions_eq_ok.mp h with ⟨rfl, -⟩ | ⟨rfl, -⟩ <;> decide

theorem setupLazyLinking_spec {bin : MachO} {mem mem' : Mem} {stubs : Section}
    (hs : stubSection bin = some stubs) (h : setupLazyLinking bin mem = .ok mem') :
    ∃ info ws, stubs.dyldIndirectSymbolInfo = some info ∧ stubInstructions info.entrySize = .ok ws ∧
      (∀ t ∈ stubsOf stubs info,
        wordsMatch mem t.start ws = true ∧ wordsMatch mem' t.start (lazyWords info.entrySize) = true) ∧
      (∀ x, (∀ t ∈ stubsOf stubs info, ¬ inRange t.start (4 * ws.length) x) → mem'.bytes x = mem.bytes x) := by
  simp only [setupLazyLinking, hs, except_bind_eq_ok, Rust.unwrap_eq_ok, Rust.assert_eq_ok] at h
  obtain ⟨info, hinfo, ws, hws, _, _, hloop⟩ := h
  obtain ⟨hexp, hlazy⟩ := stubInstructions_length hws
  obtain ⟨hpre, hpost, hframe⟩ := setupStubs_spec hexp hlazy (count_mul_le stubs info.entrySize) hloop
  refine ⟨info, ws, hinfo, hws, fun t ht => ?_, fun x hx => hframe x fun i hi => ?_⟩
  · obtain ⟨i, hi, rfl⟩ := mem_stubsOf.mp ht
    exact ⟨hpre i hi, hpost i hi⟩
  · exact hx ⟨stubs.addr + BitVec.ofNat 32 i * info.entrySize, info.entrySize, info.indirectUndefSymbols[i]?.join⟩
      (mem_stubsOf.mpr ⟨i, hi, rfl⟩)

theorem inRange_split {p x : VAddr} {n : Nat} (h : inRange p (4 * n + 4) x) :
    inRange p 4 x ∨ inRange (p + 4) (4 * n) x := by
  unfold inRange at *
  bv_omega

theorem bytes_eq_of_wordsMatch {ws : List (BitVec 32)} {m m' : Mem} {p : VAddr}
    (h : wordsMatch m p ws = true) (h' : wordsMatch m' p ws = true) :
    ∀ x, inRange p (4 * ws.length) x → m.bytes x = m'.bytes x := by
  induction ws generalizing p with
  | nil => exact fun x hx => absurd hx (Nat.not_lt_zero _)
  | cons w ws ih =>
    simp only [wordsMatch, Bool.and_eq_true, beq_iff_eq] at h h'
    intro x hx
    rw [List.length_cons, Nat.mul_succ] at hx
    rcases inRange_split hx with hx | hx
    · exact Mem.bytes_eq_of_read_eq (h.1.trans h'.1.symm) hx
    · exact ih h.2 h'.2 x hx

theorem inRange_section_of_stub {stubs : Section} {info : DyldIndirectSymbolInfo} {t : Stub} {x : VAddr}
    (ht : t ∈ stubsOf stubs info) (hx : inRange t.start t.entrySize.toNat x) :
    inRange stubs.addr stubs.size.toNat x := by
  obtain ⟨i, hi, rfl⟩ := mem_stubsOf.mp ht
  have hc := count_mul_le stubs info.entrySize
  have hle := stub_le_of_lt (e := info.entrySize.toNat) hi
  have hsz : (stubs.size / info.entrySize).toNat * info.entrySize.toNat ≤ stubs.size.toNat := by
    rw [BitVec.toNat_udiv]; exact Nat.div_mul_le_self _ _
  dsimp only at hx
  rw [inRange_stub_iff (by omega)] at hx
  unfold inRange
  omega

theorem cell_not_inRange_instructions {stubs : Section} {info : DyldIndirectSymbolInfo} {t t' : Stub}
    {x : VAddr} {L : Nat} (hL : L + 4 = info.entrySize.toNat) (ht : t ∈ stubsOf stubs info)
    (ht' : t' ∈ stubsOf stubs info) (hx : inRange (t.start + BitVec.ofNat 32 L) 4 x) :
    ¬ inRange t'.start L x := by
  obtain ⟨i, hi, rfl⟩ := mem_stubsOf.mp ht
  obtain ⟨j, hj, rfl⟩ := mem_stubsOf.mp ht'
  have hc := count_mul_le stubs info.entrySize
  have hie := stub_le_of_lt (e := info.entrySize.toNat) hi
  have hje := stub_le_of_lt (e := info.entrySize.toNat) hj
  dsimp only at hx ⊢
  rw [ofNat_mul_eq, add_ofNat_add, inRange_add_iff (by omega)] at hx
  rw [inRange_stub_iff (by omega)]
  rcases Nat.lt_trichotomy i j with h | rfl | h
  · have := stub_le_of_lt (e := info.entrySize.toNat) h
    omega
  · omega
  · have := stub_le_of_lt (e := info.entrySize.toNat) h
    omega

theorem inRange_cell {p x : VAddr} {L : Nat} (hL : L + 4 ≤ 2 ^ 32) (h : inRange p (L + 4) x)
    (h' : ¬ inRange p L x) : inRange (p + BitVec.ofNat 32 L) 4 x := by
  rw [inRange_add_iff hL]
  unfold inRange at h h'
  omega

end TouchHLE.Dyld
