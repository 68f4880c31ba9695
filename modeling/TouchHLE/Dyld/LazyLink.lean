import TouchHLE.Dyld.Stubs

namespace TouchHLE.Dyld

variable {F σ : Type}

theorem findStubs_spec {bins : List MachO} {p : VAddr} {stubs : Section} (h : findStubs bins p = some stubs) :
    stubs ∈ bins.filterMap stubSection ∧ stubs.addr ≤ p ∧ p < stubs.addr + stubs.size := by
  have hp := List.find?_some h
  simp only [Bool.and_eq_true, decide_eq_true_eq] at hp
  exact ⟨List.mem_of_find?_eq_some h, hp⟩

theorem stub_offset {stubs : Section} {info : DyldIndirectSymbolInfo} {i : Nat}
    (hi : i < (stubs.size / info.entrySize).toNat) :
    0 < info.entrySize.toNat ∧ i * info.entrySize.toNat + info.entrySize.toNat ≤ 2 ^ 32 := by
  have hc := count_mul_le stubs info.entrySize
  have hle := stub_le_of_lt (e := info.entrySize.toNat) hi
  refine ⟨Nat.pos_of_ne_zero fun h0 => ?_, by omega⟩
  rw [BitVec.toNat_udiv, h0, Nat.div_zero] at hi
  omega

theorem doLazyLink_eq {lists : List (List (String × F))} {bins : List MachO} {stubs : Section}
    {info : DyldIndirectSymbolInfo} {i : Nat} {env : Environment F σ}
    (hfind : findStubs bins (stubs.addr + BitVec.ofNat 32 i * info.entrySize) = some stubs)
    (hinfo : stubs.dyldIndirectSymbolInfo = some info) (hi : i < (stubs.size / info.entrySize).toNat) :
    doLazyLink lists bins (stubs.addr + BitVec.ofNat 32 i * info.entrySize) env =
      Rust.index info.indirectUndefSymbols i >>= fun s => Rust.unwrap s >>= fun sym =>
        linkSymbol lists bins info (stubs.addr + BitVec.ofNat 32 i * info.entrySize) sym env := by
  obtain ⟨hpos, hie⟩ := stub_offset hi
  have hoff : stubs.addr + BitVec.ofNat 32 i * info.entrySize - stubs.addr =
      BitVec.ofNat 32 (i * info.entrySize.toNat) := by
    rw [add_sub_cancel_left, ofNat_mul_eq]
  have hlt : i * info.entrySize.toNat < 2 ^ 32 := by omega
  have hmod : (BitVec.ofNat 32 (i * info.entrySize.toNat) % info.entrySize == 0) = true := by
    rw [beq_iff_eq]
    apply BitVec.eq_of_toNat_eq
    rw [BitVec.toNat_umod, BitVec.toNat_ofNat, Nat.mod_eq_of_lt hlt, Nat.mul_mod_left]
    rfl
  have hdiv : (BitVec.ofNat 32 (i * info.entrySize.toNat) / info.entrySize).toNat = i := by
    rw [BitVec.toNat_udiv, BitVec.toNat_ofNat, Nat.mod_eq_of_lt hlt, Nat.mul_div_cancel _ hpos]
  simp only [doLazyLink, hfind, hinfo, hoff, hmod, hdiv, Rust.unwrap, Rust.assert, if_true, bind, Except.bind]

theorem doLazyLink_at_stub {lists : List (List (String × F))} {bins : List MachO} {stubs : Section}
    {info : DyldIndirectSymbolInfo} {t : Stub} {env : Environment F σ} {r : Option F × Environment F σ}
    (hfind : findStubs bins t.start = some stubs) (hinfo : stubs.dyldIndirectSymbolInfo = some info)
    (ht : t ∈ stubsOf stubs info) :
    doLazyLink lists bins t.start env = .ok r ↔
      ∃ sym, t.symbol = some sym ∧ linkSymbol lists bins info t.start sym env = .ok r := by
  obtain ⟨i, hi, rfl⟩ := mem_stubsOf.mp ht
  rw [doLazyLink_eq hfind hinfo hi]
  cases hs : info.indirectUndefSymbols[i]? with
  | none => simp [Rust.index, hs, bind, Except.bind]
  | some s => cases s <;> simp [Rust.index, hs, bind, Except.bind, Rust.unwrap]

theorem findStubs_of_doLazyLink {lists : List (List (String × F))} {bins : List MachO} {p : VAddr}
    {env : Environment F σ} {r : Option F × Environment F σ} (h : doLazyLink lists bins p env = .ok r) :
    ∃ s, findStubs bins p = some s := by
  cases hs : findStubs bins p with
  | none => simp [doLazyLink, hs, Rust.unwrap, bind, Except.bind] at h
  | some s => exact ⟨s, rfl⟩

theorem linkSymbol_eq_ok {lists : List (List (String × F))} {bins : List MachO}
    {info : DyldIndirectSymbolInfo} {p : VAddr} {sym : String} {env : Environment F σ}
    {r : Option F × Environment F σ} :
    linkSymbol lists bins info p sym env = .ok r ↔
      (∃ f, searchLists lists sym = some f ∧ linkHostFunction f p env = .ok r) ∨
      (searchLists lists sym = none ∧ ∃ addr,
        (bins.drop 1).findSome? (fun dylib => dylib.exportedSymbols.lookup sym) = some addr ∧
          linkGuestFunction info p addr env = .ok r) := by
  unfold linkSymbol
  cases searchLists lists sym with
  | some f => simp
  | none => cases (bins.drop 1).findSome? (fun dylib => dylib.exportedSymbols.lookup sym) <;> simp

theorem linkHostFunction_eq_ok {f : F} {p : VAddr} {env : Environment F σ} {r : Option F × Environment F σ} :
    linkHostFunction f p env = .ok r ↔
      env.dyld.linkedHostFunctions.length < 2 ^ 32 ∧ ∃ w,
        encodeA32Svc (BitVec.ofNat 32 env.dyld.linkedHostFunctions.length + svcLinkedFunctionsBase) = .ok w ∧
        (env.mem.write p w).read (p + 4) = encodeA32Ret ∧
        r = (some f, { env with
          dyld := { env.dyld with linkedHostFunctions := env.dyld.linkedHostFunctions ++ [f] },
          mem := env.mem.write p w, cpu := env.cpu.invalidateCacheRange p 4 }) := by
  simp only [linkHostFunction, except_bind_eq_ok, Rust.assert_eq_ok, decide_eq_true_eq, beq_iff_eq]
  constructor
  · rintro ⟨_, hn, w, hw, _, hret, hr⟩
    exact ⟨hn, w, hw, hret, (Except.ok.inj hr).symm⟩
  · rintro ⟨hn, w, hw, hret, rfl⟩
    exact ⟨(), hn, w, hw, (), hret, rfl⟩

theorem linkGuestFunction_eq_ok {info : DyldIndirectSymbolInfo} {p addr : VAddr} {env : Environment F σ}
    {r : Option F × Environment F σ} :
    linkGuestFunction info p addr env = .ok r ↔
      ∃ ws, stubInstructions info.entrySize = .ok ws ∧
        r = (none, { env with
          mem := (writeWords env.mem p ws).write
            (laSymbolPtr info.entrySize p ((writeWords env.mem p ws).read (p + BitVec.ofNat 32 ws.length * 4)))
            addr,
          cpu := env.cpu.invalidateCacheRange p (BitVec.ofNat 32 ws.length * 4) }) := by
  simp only [linkGuestFunction, except_bind_eq_ok]
  constructor
  · rintro ⟨ws, hws, hr⟩
    exact ⟨ws, hws, (Except.ok.inj hr).symm⟩
  · rintro ⟨ws, hws, rfl⟩
    exact ⟨ws, hws, rfl⟩

theorem ofNat_mul_four (n : Nat) : BitVec.ofNat 32 n * 4 = BitVec.ofNat 32 (4 * n) := by
  rw [ofNat_mul_eq, Nat.mul_comm]
  rfl

theorem read_cell_writeWords {ws : List (BitVec 32)} (hn : 4 * ws.length + 4 ≤ 2 ^ 32) (m : Mem) (p : VAddr) :
    (writeWords m p ws).read (p + BitVec.ofNat 32 ws.length * 4) = m.read (p + BitVec.ofNat 32 (4 * ws.length)) := by
  rw [ofNat_mul_four]
  refine Mem.read_congr fun x hx => writeWords_bytes_of_not_inRange (by omega) fun hx' => ?_
  rw [inRange_add_iff (by omega)] at hx
  unfold inRange at hx'
  omega

theorem restored_stub {m : Mem} {p c a : VAddr} {ws : List (BitVec 32)} (hn : 4 * ws.length + 4 ≤ 2 ^ 32)
    (hc : Separate c 4 p (4 * ws.length + 4)) :
    wordsMatch ((writeWords m p ws).write c a) p ws = true ∧
      ((writeWords m p ws).write c a).read (p + BitVec.ofNat 32 (4 * ws.length)) =
        m.read (p + BitVec.ofNat 32 (4 * ws.length)) := by
  refine ⟨(wordsMatch_congr (by omega) fun x hx => Mem.bytes_write_of_not_inRange fun hcx =>
    hc x hcx (by unfold inRange at hx ⊢; omega)).trans (wordsMatch_writeWords (by omega) m p), ?_⟩
  have hsep : Separate (p + BitVec.ofNat 32 (4 * ws.length)) 4 c 4 := hc.symm.mono (fun x hx => by
    rw [inRange_add_iff (by omega)] at hx
    unfold inRange
    omega) fun _ => id
  rw [Mem.read_write_of_separate hsep, ← read_cell_writeWords hn m p, ofNat_mul_four]

theorem doLazyLink_cases {lists : List (List (String × F))} {bins : List MachO} {stubs : Section}
    {info : DyldIndirectSymbolInfo} {t : Stub} {env : Environment F σ} {r : Option F × Environment F σ}
    (hfind : findStubs bins t.start = some stubs) (hinfo : stubs.dyldIndirectSymbolInfo = some info)
    (ht : t ∈ stubsOf stubs info) (h : doLazyLink lists bins t.start env = .ok r) :
    ∃ sym, t.symbol = some sym ∧
      ((∃ f w, searchLists lists sym = some f ∧ env.dyld.linkedHostFunctions.length < 2 ^ 32 ∧
        encodeA32Svc (BitVec.ofNat 32 env.dyld.linkedHostFunctions.length + svcLinkedFunctionsBase) = .ok w ∧
        (env.mem.write t.start w).read (t.start + 4) = encodeA32Ret ∧
        r = (some f, { env with
          dyld := { env.dyld with linkedHostFunctions := env.dyld.linkedHostFunctions ++ [f] },
          mem := env.mem.write t.start w, cpu := env.cpu.invalidateCacheRange t.start 4 })) ∨
      (∃ addr ws, searchLists lists sym = none ∧
        (bins.drop 1).findSome? (fun dylib => dylib.exportedSymbols.lookup sym) = some addr ∧
        stubInstructions info.entrySize = .ok ws ∧
        r = (none, { env with
          mem := (writeWords env.mem t.start ws).write
            (laSymbolPtr info.entrySize t.start (env.mem.read (t.start + BitVec.ofNat 32 (4 * ws.length)))) addr,
          cpu := env.cpu.invalidateCacheRange t.start (BitVec.ofNat 32 ws.length * 4) }))) := by
  obtain ⟨sym, hsym, hl⟩ := (doLazyLink_at_stub hfind hinfo ht).mp h
  refine ⟨sym, hsym, ?_⟩
  rcases linkSymbol_eq_ok.mp hl with ⟨f, hf, hh⟩ | ⟨hf, addr, ha, hg⟩
  · obtain ⟨hn, w, hw, hret, rfl⟩ := linkHostFunction_eq_ok.mp hh
    exact .inl ⟨f, w, hf, hn, hw, hret, rfl⟩
  · obtain ⟨ws, hws, rfl⟩ := linkGuestFunction_eq_ok.mp hg
    have hlen := (stubInstructions_length hws).1
    have hlt := info.entrySize.isLt
    refine .inr ⟨addr, ws, hf, ha, hws, ?_⟩
    rw [read_cell_writeWords (by omega)]

theorem entrySize_of_mem_stubsOf {stubs : Section} {info : DyldIndirectSymbolInfo} {t : Stub}
    (ht : t ∈ stubsOf stubs info) : t.entrySize = info.entrySize := by
  obtain ⟨i, _, rfl⟩ := mem_stubsOf.mp ht
  rfl

theorem setupLazyLinking_cell {bin : MachO} {mem mem' : Mem} {stubs : Section} {info : DyldIndirectSymbolInfo}
    (hs : stubSection bin = some stubs) (h : setupLazyLinking bin mem = .ok mem')
    (hinfo : stubs.dyldIndirectSymbolInfo = some info) {t : Stub} (ht : t ∈ stubsOf stubs info) :
    mem'.read t.cell = mem.read t.cell := by
  obtain ⟨info', ws, hinfo', hws, -, hframe⟩ := setupLazyLinking_spec hs h
  obtain rfl : info' = info := Option.some.inj (hinfo'.symm.trans hinfo)
  obtain ⟨hlen, -⟩ := stubInstructions_length hws
  rw [Stub.cell, entrySize_of_mem_stubsOf ht, ← hlen, Nat.add_sub_cancel]
  exact Mem.read_congr fun x hx => hframe x fun t' ht' => cell_not_inRange_instructions hlen ht ht' hx

theorem lazyWords_reads {mem : Mem} {p : VAddr} {es : GuestUSize} (h : wordsMatch mem p (lazyWords es) = true) :
    encodeA32Svc svcLazyLink = .ok (mem.read p) ∧ mem.read (p + 4) = encodeA32Ret ∧
      (es = 16 → mem.read (p + 8) = encodeA32Trap) := by
  unfold lazyWords at h
  split at h <;> simp only [wordsMatch, Bool.and_eq_true, beq_iff_eq, Bool.and_true] at h
  · refine ⟨by rw [h.1]; rfl, h.2.1, fun _ => by rw [add_assoc] at h; exact h.2.2⟩
  · exact ⟨by rw [h.1]; rfl, h.2, fun h16 => absurd h16 ‹_›⟩

end TouchHLE.Dyld
