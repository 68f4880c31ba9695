import TouchHLE.Dyld.Run

namespace TouchHLE.Dyld

variable {F σ : Type}

/-- The three states of a stub once initial linking is done. -/
inductive StubState
  | unlinked
  | guestLinked
  | hostLinked (k : Nat)
  deriving DecidableEq

/-- What the words of a stub and the host function table say in each state: a host-linked
stub traps into table entry `k`, the host function its symbol resolves to. -/
def StubIn (lists : List (List (String × F))) (env : Environment F σ) (t : Stub) : StubState → Prop
  | .unlinked => Unlinked env.mem t
  | .guestLinked => ∃ ws, stubInstructions t.entrySize = .ok ws ∧ wordsMatch env.mem t.start ws = true
  | .hostLinked k =>
    encodeA32Svc (BitVec.ofNat 32 k + svcLinkedFunctionsBase) = .ok (env.mem.read t.start) ∧
      env.mem.read (t.start + 4) = encodeA32Ret ∧ k < env.dyld.linkedHostFunctions.length ∧
      env.dyld.linkedHostFunctions[k]? = t.symbol.bind (searchLists lists)

/-- The trap code at or above the dynamic base that the first word of a stub carries. -/
def stubCode (mem : Mem) (t : Stub) : Option (BitVec 32) :=
  (svcImm (mem.read t.start)).filter fun c => svcLinkedFunctionsBase ≤ c

def linkedCodes (bins : List MachO) (mem : Mem) : List (BitVec 32) :=
  (allStubs bins).filterMap (stubCode mem)

/-- The codes a table of `n` host functions has handed out. -/
def tableCodes (n : Nat) : List (BitVec 32) :=
  (List.range n).map fun k => BitVec.ofNat 32 k + svcLinkedFunctionsBase

/-- The run invariant of the linker: every stub is in a state, data cells are as loaded, the
table stays below the 24-bit SVC space, and its codes are those the stubs carry. -/
structure Inv (L : Loaded F σ) (env : Environment F σ) : Prop where
  states : ∀ t ∈ allStubs L.bins, ∃ st, StubIn L.lists env t st
  cells : ∀ t ∈ allStubs L.bins, env.mem.read t.cell = L.mem.read t.cell
  table : env.dyld.linkedHostFunctions.length + 2 ≤ 2 ^ 24
  codes : (linkedCodes L.bins env.mem).Perm (tableCodes env.dyld.linkedHostFunctions.length)

theorem tableCodes_succ (n : Nat) :
    tableCodes (n + 1) = tableCodes n ++ [BitVec.ofNat 32 n + svcLinkedFunctionsBase] := by
  rw [tableCodes, tableCodes, List.range_succ, List.map_append, List.map_singleton]

theorem svcLinkedFunctionsBase_eq : svcLinkedFunctionsBase = 2#32 := rfl

theorem toNat_code {k : Nat} (hk : k + 2 < 2 ^ 32) :
    (BitVec.ofNat 32 k + svcLinkedFunctionsBase).toNat = k + 2 := by
  rw [svcLinkedFunctionsBase_eq, BitVec.toNat_add, BitVec.toNat_ofNat]
  simp only [BitVec.toNat_ofNat]
  omega

theorem code_ne_svcLazyLink {k : Nat} (hk : k + 2 < 2 ^ 32) :
    BitVec.ofNat 32 k + svcLinkedFunctionsBase ≠ svcLazyLink := fun h => by
  have := congrArg BitVec.toNat h
  rw [toNat_code hk] at this
  exact absurd this (by rw [show svcLazyLink.toNat = 0 from rfl]; omega)

theorem code_inj {k k' : Nat} (hk : k + 2 < 2 ^ 32) (hk' : k' + 2 < 2 ^ 32)
    (h : BitVec.ofNat 32 k + svcLinkedFunctionsBase = BitVec.ofNat 32 k' + svcLinkedFunctionsBase) : k = k' := by
  have := congrArg BitVec.toNat h
  rw [toNat_code hk, toNat_code hk'] at this
  omega

theorem read_lt_of_template {mem : Mem} {p : VAddr} {es : GuestUSize} {ws : List (BitVec 32)}
    (hws : stubInstructions es = .ok ws) (h : wordsMatch mem p ws = true) : (mem.read p).toNat < 0xef000000 := by
  rcases stubInstructions_eq_ok.mp hws with ⟨-, rfl⟩ | ⟨-, rfl⟩ <;>
    simp only [symbolStubInstructions, picSymbolStubInstructions, wordsMatch, Bool.and_eq_true,
      beq_iff_eq] at h <;> rw [h.1] <;> decide

theorem svcImm_of_lt {w : BitVec 32} (h : w.toNat < 0xef000000) : svcImm w = none := by
  unfold svcImm
  rw [if_neg (by omega)]

theorem stubCode_unlinked {mem : Mem} {t : Stub} (h : Unlinked mem t) : stubCode mem t = none := by
  rw [stubCode, (svcImm_eq_some_iff.mpr h.1)]
  rfl

theorem stubCode_guest {mem : Mem} {t : Stub} {ws : List (BitVec 32)} (hws : stubInstructions t.entrySize = .ok ws)
    (h : wordsMatch mem t.start ws = true) : stubCode mem t = none := by
  rw [stubCode, svcImm_of_lt (read_lt_of_template hws h)]
  rfl

theorem stubCode_host {mem : Mem} {t : Stub} {k : Nat} (hk : k + 2 < 2 ^ 24)
    (h : encodeA32Svc (BitVec.ofNat 32 k + svcLinkedFunctionsBase) = .ok (mem.read t.start)) :
    stubCode mem t = some (BitVec.ofNat 32 k + svcLinkedFunctionsBase) := by
  rw [stubCode, svcImm_eq_some_iff.mpr h, Option.filter, if_pos]
  rw [decide_eq_true_eq, BitVec.le_def, toNat_code (by omega)]
  exact Nat.le_add_left _ _

theorem filterMap_perm_of_update {α β : Type} {l : List α} {f g : α → Option β} {a : α} (hl : l.Nodup)
    (ha : a ∈ l) (hfa : f a = none) (h : ∀ x ∈ l, x ≠ a → g x = f x) :
    (l.filterMap g).Perm (l.filterMap f ++ (g a).toList) := by
  obtain ⟨l₁, l₂, rfl⟩ := List.append_of_mem ha
  have hnd := List.nodup_middle.mp hl
  rw [List.nodup_cons, List.mem_append, not_or] at hnd
  obtain ⟨⟨ha₁, ha₂⟩, -⟩ := hnd
  have h₁ : l₁.filterMap g = l₁.filterMap f :=
    List.filterMap_congr fun x hx => h x (by simp [hx]) fun hxa => ha₁ (hxa ▸ hx)
  have h₂ : l₂.filterMap g = l₂.filterMap f :=
    List.filterMap_congr fun x hx => h x (by simp [hx]) fun hxa => ha₂ (hxa ▸ hx)
  rw [List.filterMap_append, List.filterMap_append, List.filterMap_cons, List.filterMap_cons, hfa, h₁, h₂]
  cases g a with
  | none => simp
  | some b => exact List.perm_middle.trans (List.perm_append_singleton _ _).symm

section States

variable {lists : List (List (String × F))} {env : Environment F σ} {t : Stub}

theorem stubIn_unique (hlen : env.dyld.linkedHostFunctions.length + 2 ≤ 2 ^ 24) :
    ∀ {st st' : StubState}, StubIn lists env t st → StubIn lists env t st' → st = st'
  | .unlinked, .unlinked, _, _ => rfl
  | .guestLinked, .guestLinked, _, _ => rfl
  | .hostLinked k, .hostLinked k', ⟨h, _, hk, _⟩, ⟨h', _, hk', _⟩ => by
    rw [code_inj (by omega) (by omega) (encodeA32Svc_inj h h')]
  | .unlinked, .guestLinked, h, ⟨_, hws, h'⟩ | .guestLinked, .unlinked, ⟨_, hws, h'⟩, h =>
    absurd h.1 (encodeA32Svc_ne_of_lt (read_lt_of_template hws h'))
  | .guestLinked, .hostLinked _, ⟨_, hws, h'⟩, ⟨h, _⟩ | .hostLinked _, .guestLinked, ⟨h, _⟩, ⟨_, hws, h'⟩ =>
    absurd h (encodeA32Svc_ne_of_lt (read_lt_of_template hws h'))
  | .unlinked, .hostLinked k, h, ⟨h', _, hk, _⟩ | .hostLinked k, .unlinked, ⟨h', _, hk, _⟩, h =>
    absurd (encodeA32Svc_inj h' h.1) (code_ne_svcLazyLink (by omega))

theorem stubIn_of_bytes {env' : Environment F σ} (h8 : 8 ≤ t.entrySize.toNat)
    (hb : ∀ x, inRange t.start t.entrySize.toNat x → env'.mem.bytes x = env.mem.bytes x)
    (htable : ∃ l, env'.dyld.linkedHostFunctions = env.dyld.linkedHostFunctions ++ l) :
    ∀ {st : StubState}, StubIn lists env t st → StubIn lists env' t st
  | .unlinked, h => h.of_stub_bytes hb h8
  | .guestLinked, ⟨ws, hws, h⟩ => by
    have hl := (stubInstructions_length hws).1
    refine ⟨ws, hws, (wordsMatch_congr (by have := t.entrySize.isLt; omega) fun x hx => hb x ?_).trans h⟩
    unfold inRange at *
    omega
  | .hostLinked k, ⟨h0, h1, hk, hf⟩ => by
    obtain ⟨l, hl⟩ := htable
    rw [StubIn, read_start_eq_of_stub_bytes hb (by omega), ← h1]
    refine ⟨h0, read_eq_of_stub_bytes hb (o := 4) (by omega), ?_, ?_⟩
    · rw [hl, List.length_append]; omega
    · rw [hl, List.getElem?_append_left hk]; exact hf

end States

section Link

variable {L : Loaded F σ} (hwf : WellFormed L) {env env' : Environment F σ} {t : Stub}
  (ht : t ∈ allStubs L.bins)
include hwf ht

theorem inv_of_link (hinv : Inv L env)
    (hothers : ∀ t' ∈ allStubs L.bins, t' ≠ t → ∀ x, inRange t'.start t'.entrySize.toNat x →
      env'.mem.bytes x = env.mem.bytes x)
    (hcell : env'.mem.read t.cell = env.mem.read t.cell)
    (htable : ∃ l, env'.dyld.linkedHostFunctions = env.dyld.linkedHostFunctions ++ l)
    (hlen : env'.dyld.linkedHostFunctions.length + 2 ≤ 2 ^ 24) {st : StubState} (hst : StubIn L.lists env' t st)
    (hcodes : (linkedCodes L.bins env'.mem).Perm (tableCodes env'.dyld.linkedHostFunctions.length)) :
    Inv L env' ∧ ∀ t' ∈ allStubs L.bins, t' ≠ t → ∀ st', StubIn L.lists env t' st' → StubIn L.lists env' t' st' := by
  have hkeep : ∀ t' ∈ allStubs L.bins, t' ≠ t → ∀ st', StubIn L.lists env t' st' → StubIn L.lists env' t' st' :=
    fun t' ht' hne _ h => stubIn_of_bytes (by have := hwf.entrySize_ge ht'; omega) (hothers t' ht' hne) htable h
  refine ⟨⟨fun t' ht' => ?_, fun t' ht' => ?_, hlen, hcodes⟩, hkeep⟩
  · by_cases hne : t' = t
    · exact ⟨st, hne ▸ hst⟩
    · obtain ⟨st', h⟩ := hinv.states t' ht'
      exact ⟨st', hkeep t' ht' hne st' h⟩
  · by_cases hne : t' = t
    · subst hne
      exact hcell.trans (hinv.cells t' ht')
    · exact (cell_eq_of_stub_bytes (hothers t' ht' hne) (by have := hwf.entrySize_ge ht'; omega)).trans
        (hinv.cells t' ht')

theorem linkedCodes_perm_of_link (hu : Unlinked env.mem t)
    (hothers : ∀ t' ∈ allStubs L.bins, t' ≠ t → ∀ x, inRange t'.start t'.entrySize.toNat x →
      env'.mem.bytes x = env.mem.bytes x) :
    (linkedCodes L.bins env'.mem).Perm (linkedCodes L.bins env.mem ++ (stubCode env'.mem t).toList) :=
  filterMap_perm_of_update (allStubs_nodup hwf.disjoint) ht (stubCode_unlinked hu) fun t' ht' hne => by
    rw [stubCode, stubCode,
      read_start_eq_of_stub_bytes (hothers t' ht' hne) (by have := hwf.entrySize_ge ht'; omega)]

theorem not_inRange_of_other {t' : Stub} (ht' : t' ∈ allStubs L.bins) (hne : t' ≠ t) {x : VAddr}
    (hx : inRange t'.start t'.entrySize.toNat x) : ¬ inRange t.start t.entrySize.toNat x := fun hx' =>
  ((allStubs_separate hwf.disjoint ht' ht).resolve_left hne) x hx hx'

theorem hostLink_inv (hinv : Inv L env) (hu : Unlinked env.mem t) {f : F} {w : BitVec 32}
    (hsym : t.symbol.bind (searchLists L.lists) = some f)
    (hw : encodeA32Svc (BitVec.ofNat 32 env.dyld.linkedHostFunctions.length + svcLinkedFunctionsBase) = .ok w)
    (hret : (env.mem.write t.start w).read (t.start + 4) = encodeA32Ret)
    (hmem : env'.mem = env.mem.write t.start w)
    (htable : env'.dyld.linkedHostFunctions = env.dyld.linkedHostFunctions ++ [f]) :
    Inv L env' ∧ StubIn L.lists env' t (.hostLinked env.dyld.linkedHostFunctions.length) ∧
      ∀ t' ∈ allStubs L.bins, t' ≠ t → ∀ st', StubIn L.lists env t' st' → StubIn L.lists env' t' st' := by
  have h12 := hwf.entrySize_ge ht
  have htab := hinv.table
  have hn : env.dyld.linkedHostFunctions.length + 2 < 2 ^ 24 := by
    have := (encodeA32Svc_eq_ok_iff.mp hw).1
    rwa [toNat_code (by omega)] at this
  have hothers : ∀ t' ∈ allStubs L.bins, t' ≠ t → ∀ x, inRange t'.start t'.entrySize.toNat x →
      env'.mem.bytes x = env.mem.bytes x := fun t' ht' hne x hx => by
    rw [hmem]
    exact Mem.bytes_write_of_not_inRange fun h4 =>
      not_inRange_of_other hwf ht ht' hne hx (by unfold inRange at *; omega)
  have hst : StubIn L.lists env' t (.hostLinked env.dyld.linkedHostFunctions.length) :=
    ⟨by rw [hmem, Mem.read_write_self]; exact hw, hmem ▸ hret, by simp [htable],
      by rw [htable, List.getElem?_concat_length, hsym]⟩
  have hcell : env'.mem.read t.cell = env.mem.read t.cell := by
    have := t.entrySize.isLt
    rw [hmem]
    refine Mem.read_congr fun x hx => Mem.bytes_write_of_not_inRange fun h4 => ?_
    rw [Stub.cell, inRange_add_iff (by omega)] at hx
    unfold inRange at h4
    omega
  have hcodes : (linkedCodes L.bins env'.mem).Perm (tableCodes env'.dyld.linkedHostFunctions.length) := by
    refine (linkedCodes_perm_of_link hwf ht hu hothers).trans ?_
    rw [stubCode_host hn hst.1, htable, List.length_append, List.length_singleton, tableCodes_succ]
    exact hinv.codes.append_right _
  obtain ⟨hinv', hkeep⟩ := inv_of_link hwf ht hinv hothers hcell ⟨[f], htable⟩ (by simp [htable]; omega) hst hcodes
  exact ⟨hinv', hst, hkeep⟩

theorem lazyPointer_separate (hinv : Inv L env) {ws : List (BitVec 32)}
    (hws : stubInstructions t.entrySize = .ok ws) :
    ∀ s ∈ L.bins.filterMap stubSection, Separate (laSymbolPtr t.entrySize t.start
      (env.mem.read (t.start + BitVec.ofNat 32 (4 * ws.length)))) 4 s.addr s.size.toNat := by
  obtain ⟨hlen, -⟩ := stubInstructions_length hws
  rw [show t.start + BitVec.ofNat 32 (4 * ws.length) = t.cell by rw [Stub.cell, ← hlen, Nat.add_sub_cancel],
    hinv.cells t ht]
  exact hwf.lazyPointers t ht

theorem guestLink_inv (hinv : Inv L env) (hu : Unlinked env.mem t) {ws : List (BitVec 32)} {addr : VAddr}
    (hws : stubInstructions t.entrySize = .ok ws)
    (hmem : env'.mem = (writeWords env.mem t.start ws).write
      (laSymbolPtr t.entrySize t.start (env.mem.read (t.start + BitVec.ofNat 32 (4 * ws.length)))) addr)
    (hdyld : env'.dyld = env.dyld) :
    Inv L env' ∧ StubIn L.lists env' t .guestLinked ∧
      ∀ t' ∈ allStubs L.bins, t' ≠ t → ∀ st', StubIn L.lists env t' st' → StubIn L.lists env' t' st' := by
  obtain ⟨hlen, -⟩ := stubInstructions_length hws
  have hes := t.entrySize.isLt
  have hla := lazyPointer_separate hwf ht hinv hws
  have hothers : ∀ t' ∈ allStubs L.bins, t' ≠ t → ∀ x, inRange t'.start t'.entrySize.toNat x →
      env'.mem.bytes x = env.mem.bytes x := fun t' ht' hne x hx => by
    obtain ⟨s, hs, hxs⟩ := exists_section_of_stub ht' hx
    have hout := not_inRange_of_other hwf ht ht' hne hx
    rw [hmem, Mem.bytes_write_of_not_inRange fun h => hla s hs x h hxs,
      writeWords_bytes_of_not_inRange (by omega) fun h => hout (by unfold inRange at *; omega)]
  -- the lazy pointer lies outside the stub's section, so outside the stub
  have hsep : Separate (laSymbolPtr t.entrySize t.start (env.mem.read (t.start + BitVec.ofNat 32 (4 * ws.length))))
      4 t.start (4 * ws.length + 4) := fun x hx hx' => by
    obtain ⟨s, hs, hxs⟩ := exists_section_of_stub ht (hlen ▸ hx')
    exact hla s hs x hx hxs
  obtain ⟨hmatch, hcell⟩ := restored_stub (a := addr) (by omega) hsep
  rw [← hmem, show t.start + BitVec.ofNat 32 (4 * ws.length) = t.cell by
    rw [Stub.cell, ← hlen, Nat.add_sub_cancel]] at hcell
  rw [← hmem] at hmatch
  have hcodes : (linkedCodes L.bins env'.mem).Perm (tableCodes env'.dyld.linkedHostFunctions.length) := by
    refine (linkedCodes_perm_of_link hwf ht hu hothers).trans ?_
    rw [stubCode_guest hws hmatch, Option.toList_none, List.append_nil, hdyld]
    exact hinv.codes
  obtain ⟨hinv', hkeep⟩ := inv_of_link hwf ht hinv hothers hcell ⟨[], by rw [hdyld, List.append_nil]⟩
    (hdyld ▸ hinv.table) (show StubIn L.lists env' t .guestLinked from ⟨ws, hws, hmatch⟩) hcodes
  exact ⟨hinv', ⟨ws, hws, hmatch⟩, hkeep⟩

theorem lazyLink_inv (hinv : Inv L env) (hu : Unlinked env.mem t) {f : Option F}
    (h : doLazyLink L.lists L.bins t.start env = .ok (f, env')) :
    Inv L env' ∧ (∃ st, st ≠ .unlinked ∧ StubIn L.lists env' t st) ∧
      ∀ t' ∈ allStubs L.bins, t' ≠ t → ∀ st', StubIn L.lists env t' st' → StubIn L.lists env' t' st' := by
  obtain ⟨s, hfind⟩ := findStubs_of_doLazyLink h
  obtain ⟨info, hinfo, hts⟩ := findStubs_of_mem_allStubs hwf.disjoint ht hfind
  have hes := entrySize_of_mem_stubsOf hts
  obtain ⟨sym, hsym, ⟨g, w, hg, -, hw, hret, hr⟩ | ⟨addr, ws, -, -, hws, hr⟩⟩ := doLazyLink_cases hfind hinfo hts h
  · obtain ⟨-, he⟩ := Prod.mk.inj hr
    obtain ⟨hinv', hst, hkeep⟩ := hostLink_inv hwf ht hinv hu (by rw [hsym, Option.some_bind, hg]) hw hret
      (show env'.mem = env.mem.write t.start w by rw [he]) (by rw [he])
    exact ⟨hinv', ⟨.hostLinked env.dyld.linkedHostFunctions.length, nofun, hst⟩, hkeep⟩
  · obtain ⟨-, he⟩ := Prod.mk.inj hr
    rw [← hes] at hws
    obtain ⟨hinv', hst, hkeep⟩ := guestLink_inv hwf ht hinv hu hws
      (show env'.mem = (writeWords env.mem t.start ws).write (laSymbolPtr t.entrySize t.start
        (env.mem.read (t.start + BitVec.ofNat 32 (4 * ws.length)))) addr by rw [he, hes]) (by rw [he])
    exact ⟨hinv', ⟨.guestLinked, nofun, hst⟩, hkeep⟩

end Link

section Run

variable {L : Loaded F σ} {env env' : Environment F σ}

theorem unlinked_of_lazy_word (hinv : Inv L env) {t : Stub} (ht : t ∈ allStubs L.bins)
    (hc : encodeA32Svc svcLazyLink = .ok (env.mem.read t.start)) : Unlinked env.mem t := by
  obtain ⟨st, hst⟩ := hinv.states t ht
  cases st with
  | unlinked => exact hst
  | guestLinked =>
    obtain ⟨ws, hws, hm⟩ := hst
    exact absurd hc (encodeA32Svc_ne_of_lt (read_lt_of_template hws hm))
  | hostLinked k =>
    obtain ⟨hk0, -, hk, -⟩ := hst
    exact absurd (encodeA32Svc_inj hk0 hc) (code_ne_svcLazyLink (by have := hinv.table; omega))

theorem trap_cases (hinv : Inv L env) {t : Stub} (ht : t ∈ allStubs L.bins) {c : BitVec 32}
    (hc : encodeA32Svc c = .ok (env.mem.read t.start)) (hc1 : c ≠ svcReturnToHost) {f : Option F}
    (h : getSvcHandler L.lists L.bins t.start c env = .ok (f, env')) :
    (Unlinked env.mem t ∧ c = svcLazyLink ∧ doLazyLink L.lists L.bins t.start env = .ok (f, env')) ∨
      (c ≠ svcLazyLink ∧ env' = env) := by
  unfold getSvcHandler at h
  by_cases h0 : c = svcLazyLink
  · subst h0
    rw [if_pos rfl] at h
    exact .inl ⟨unlinked_of_lazy_word hinv ht hc, rfl, h⟩
  · rw [if_neg h0, if_neg hc1] at h
    split at h
    · cases h
      exact .inr ⟨h0, rfl⟩
    · cases h

theorem step_inv (hwf : WellFormed L) (hinv : Inv L env) (h : Step L env env') :
    Inv L env' ∧ ∀ t ∈ allStubs L.bins, ∀ st, st ≠ .unlinked → StubIn L.lists env t st → StubIn L.lists env' t st := by
  cases h with
  | @trap _ t _ _ ht hc hc1 hget =>
    rcases trap_cases hinv ht hc hc1 hget with ⟨hu, -, hlink⟩ | ⟨-, rfl⟩
    · obtain ⟨hinv', -, hkeep⟩ := lazyLink_inv hwf ht hinv hu hlink
      refine ⟨hinv', fun t' ht' st hst h => ?_⟩
      by_cases hne : t' = t
      · subst hne
        exact absurd (stubIn_unique hinv.table h (show StubIn L.lists env t' .unlinked from hu)) hst
      · exact hkeep t' ht' hne st h
    · exact ⟨hinv, fun _ _ _ _ h => h⟩
  | exec a => exact ⟨⟨hinv.states, hinv.cells, hinv.table, hinv.codes⟩, fun _ _ _ _ h => h⟩

theorem init_inv (hwf : WellFormed L) (hrel : ClassRefsOutsideStubs L.bins) {warnings : List String}
    (h : doInitialLinking L.objc L.bins L.allocated ⟨Dyld.new, L.mem, L.cpu, L.objcState⟩ = .ok (env, warnings)) :
    Inv L env := by
  obtain ⟨htable, -, hstubs⟩ := init_stubs hwf hrel h
  refine ⟨fun t ht => ⟨.unlinked, (hstubs t ht).1⟩, fun t ht => (hstubs t ht).2, by simp [htable], ?_⟩
  rw [htable, linkedCodes, List.filterMap_eq_nil_iff.mpr fun t ht => stubCode_unlinked (hstubs t ht).1]
  exact List.Perm.refl _

theorem reachable_inv (hwf : WellFormed L) (hrel : ClassRefsOutsideStubs L.bins) (h : Reachable L env) :
    Inv L env := by
  induction h with
  | init h => exact init_inv hwf hrel h
  | step _ hstep ih => exact (step_inv hwf ih hstep).1

end Run

end TouchHLE.Dyld
