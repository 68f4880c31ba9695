import TouchHLE.A32
import TouchHLE.Dyld.LazyLink

namespace TouchHLE.Dyld

open A32

variable {F σ : Type}

theorem decode_ldr_ip_pc_0 : decode 0xe59fc000#32 = some (.ldrImm 12 15 0#32) := by decide

theorem decode_ldr_ip_pc_4 : decode 0xe59fc004#32 = some (.ldrImm 12 15 4) := by decide

theorem decode_add_ip_pc_ip : decode 0xe08fc00c#32 = some (.addReg 12 15 12) := by decide

theorem decode_ldr_pc_ip : decode 0xe59cf000#32 = some (.ldrImm 15 12 0#32) := by decide

theorem runToBranch_symbolStub {mem : Mem} {p : VAddr} (regs : Fin 16 → BitVec 32)
    (h : wordsMatch mem p symbolStubInstructions = true) :
    runToBranch mem 2 p regs = some (mem.read (mem.read (p + 8))) := by
  simp only [symbolStubInstructions, wordsMatch, Bool.and_eq_true, beq_iff_eq, Bool.and_true] at h
  obtain ⟨h0, h1⟩ := h
  have h12 : (12 : Fin 16) ≠ 15 := by decide
  simp only [runToBranch, h0, h1, decode_ldr_ip_pc_0, decode_ldr_pc_ip, exec, readReg, PC, if_pos, if_neg h12,
    Function.update_same, BitVec.add_zero]

theorem runToBranch_picStub {mem : Mem} {p : VAddr} (regs : Fin 16 → BitVec 32)
    (h : wordsMatch mem p picSymbolStubInstructions = true) :
    runToBranch mem 3 p regs = some (mem.read (p + 12 + mem.read (p + 12))) := by
  simp only [picSymbolStubInstructions, wordsMatch, Bool.and_eq_true, beq_iff_eq, Bool.and_true] at h
  obtain ⟨h0, h1, h2⟩ := h
  have h12 : (12 : Fin 16) ≠ 15 := by decide
  simp only [runToBranch, h0, h1, h2, decode_ldr_ip_pc_4, decode_add_ip_pc_ip, decode_ldr_pc_ip, exec, readReg, PC,
    if_pos, if_neg h12, Function.update_same]
  rw [show p + 4 + 8 = p + 12 from (add_assoc p 4 8).trans rfl,
    show p + 8 + 4 = p + 12 from (add_assoc p 8 4).trans rfl, BitVec.add_zero]

def fooStubs : Section := ⟨"__symbol_stub4", 0x1000, 12, some ⟨12, [some "_foo"]⟩⟩

def fooApp : MachO := ⟨"app", [fooStubs], [], []⟩

def fooLibrary : MachO := ⟨"lib", [], [("_foo", 0x2000)], []⟩

def fooStubMem (cell : VAddr) : Mem :=
  (((Mem.mk fun _ => 0).write 0x1000 0xe59fc000#32).write 0x1004 0xe59cf000#32).write 0x1008 cell

def fooStubSetup : Mem :=
  match setupLazyLinking fooApp (fooStubMem 0x3000) with
  | .ok m => m
  | .error _ => fooStubMem 0x3000

def picStubs : Section := ⟨"__picsymbolstub4", 0x1000, 16, some ⟨16, [some "_foo"]⟩⟩

def picApp : MachO := ⟨"app", [picStubs], [], []⟩

def picStubMem : Mem :=
  ((((Mem.mk fun _ => 0).write 0x1000 0xe59fc004#32).write 0x1004 0xe08fc00c#32).write 0x1008 0xe59cf000#32).write
    0x100c 0x100

def picStubSetup : Mem :=
  match setupLazyLinking picApp picStubMem with
  | .ok m => m
  | .error _ => picStubMem

def guestLinked (bins : List MachO) (env : Environment Nat Unit) : Environment Nat Unit :=
  match doLazyLink [] bins 0x1000 env with
  | .ok (_, env2) => env2
  | .error _ => env

def freshEnv (mem : Mem) : Environment Nat Unit := ⟨Dyld.new, mem, ⟨fun _ => 0, 0, fun _ => none⟩, ()⟩

section GuestLink

variable {lists : List (List (String × F))} {bins : List MachO} {stubs : Section}
  {info : DyldIndirectSymbolInfo} {t : Stub} {env env2 : Environment F σ}
  (hfind : findStubs bins t.start = some stubs) (hinfo : stubs.dyldIndirectSymbolInfo = some info)
  (ht : t ∈ stubsOf stubs info) (h : doLazyLink lists bins t.start env = .ok (none, env2))
include hfind hinfo ht h

theorem guestLink_mem {ws : List (BitVec 32)} (hws : stubInstructions t.entrySize = .ok ws) :
    ∃ sym addr, t.symbol = some sym ∧
      (bins.drop 1).findSome? (fun dylib => dylib.exportedSymbols.lookup sym) = some addr ∧
      env2.mem = (writeWords env.mem t.start ws).write
        (laSymbolPtr t.entrySize t.start (env.mem.read t.cell)) addr := by
  obtain ⟨sym, hsym, ⟨f, w, -, -, -, -, hr⟩ | ⟨addr, ws', -, ha, hws', hr⟩⟩ := doLazyLink_cases hfind hinfo ht h
  · cases hr
  · rw [← entrySize_of_mem_stubsOf ht, hws] at hws'
    cases hws'
    obtain ⟨-, rfl⟩ := Prod.mk.inj hr
    have hlen := (stubInstructions_length hws).1
    rw [entrySize_of_mem_stubsOf ht] at hlen
    refine ⟨sym, addr, hsym, ha, ?_⟩
    rw [Stub.cell, entrySize_of_mem_stubsOf ht, ← hlen, Nat.add_sub_cancel]

/-- A guest link of a 12-byte stub whose lazy pointer lies outside it: the restored template
jumps to the address exported for the stub's symbol. -/
theorem guestLink_symbolStub_target (h12 : t.entrySize = 12)
    (hla : Separate (laSymbolPtr t.entrySize t.start (env.mem.read t.cell)) 4 t.start t.entrySize.toNat)
    (regs : Fin 16 → BitVec 32) :
    ∃ sym addr, t.symbol = some sym ∧
      (bins.drop 1).findSome? (fun dylib => dylib.exportedSymbols.lookup sym) = some addr ∧
      runToBranch env2.mem 2 t.start regs = some addr := by
  have hws : stubInstructions t.entrySize = .ok symbolStubInstructions := by rw [h12]; rfl
  obtain ⟨sym, addr, hsym, ha, hmem⟩ := guestLink_mem hfind hinfo ht h hws
  rw [h12, show laSymbolPtr 12 t.start (env.mem.read t.cell) = env.mem.read t.cell from if_pos rfl] at hla hmem
  obtain ⟨hmatch, hcell⟩ := restored_stub (m := env.mem) (a := addr) (by decide)
    (show Separate _ 4 t.start (4 * symbolStubInstructions.length + 4) from hla)
  rw [← hmem] at hmatch hcell
  refine ⟨sym, addr, hsym, ha, ?_⟩
  rw [runToBranch_symbolStub regs hmatch, show t.start + 8 = t.cell by rw [Stub.cell, h12]; rfl]
  rw [show t.start + BitVec.ofNat 32 (4 * symbolStubInstructions.length) = t.cell by rw [Stub.cell, h12]; rfl]
    at hcell
  rw [hcell, hmem, Mem.read_write_self]

omit hfind hinfo ht h in
theorem guestLink_symbolStub_target_foo :
    ∃ sym addr, (⟨0x1000, 12, some "_foo"⟩ : Stub).symbol = some sym ∧
      ([fooApp, fooLibrary].drop 1).findSome? (fun dylib => dylib.exportedSymbols.lookup sym) = some addr ∧
      runToBranch (guestLinked [fooApp, fooLibrary] (freshEnv fooStubSetup)).mem 2 0x1000 (fun _ => 0) = some addr :=
  guestLink_symbolStub_target (t := ⟨0x1000, 12, some "_foo"⟩)
    (show findStubs [fooApp, fooLibrary] 0x1000 = some fooStubs from rfl) rfl (by decide)
    (show doLazyLink [] [fooApp, fooLibrary] 0x1000 (freshEnv fooStubSetup) =
      .ok (none, guestLinked [fooApp, fooLibrary] (freshEnv fooStubSetup)) from rfl)
    rfl (separate_of_toNat (by decide) (by decide)) (fun _ => 0)

/-- A guest link of a 16-byte stub with data cell `v`, whose lazy pointer lies outside it: the
restored template jumps through the cell at `t.start + 12 + v`, and takes the address that cell
held before the link. The link writes the resolved address to `t.start + v + 8` instead. -/
theorem guestLink_picStub_target (h16 : t.entrySize = 16)
    (hla : Separate (laSymbolPtr t.entrySize t.start (env.mem.read t.cell)) 4 t.start t.entrySize.toNat)
    (hout : Separate (t.start + 12 + env.mem.read t.cell) 4 t.start 12) (regs : Fin 16 → BitVec 32) :
    runToBranch env2.mem 3 t.start regs = some (env.mem.read (t.start + 12 + env.mem.read t.cell)) := by
  have hws : stubInstructions t.entrySize = .ok picSymbolStubInstructions := by rw [h16]; rfl
  have hc12 : t.cell = t.start + 12 := by rw [Stub.cell, h16]; rfl
  obtain ⟨sym, addr, -, -, hmem⟩ := guestLink_mem hfind hinfo ht h hws
  rw [h16, show laSymbolPtr 16 t.start (env.mem.read t.cell) = t.start + env.mem.read t.cell + 8 from
    if_neg (by decide)] at hla hmem
  rw [hc12] at hla hmem hout ⊢
  obtain ⟨hmatch, hcell⟩ := restored_stub (m := env.mem) (a := addr) (by decide)
    (show Separate _ 4 t.start (4 * picSymbolStubInstructions.length + 4) from hla)
  rw [← hmem] at hmatch hcell
  rw [show t.start + BitVec.ofNat 32 (4 * picSymbolStubInstructions.length) = t.start + 12 from rfl] at hcell
  rw [runToBranch_picStub regs hmatch, hcell, hmem, Mem.read_write_of_separate (separate_of_toNat (by bv_omega) (by bv_omega)),
    Mem.read_congr fun x hx => writeWords_bytes_of_not_inRange (by decide) (hout x hx)]

omit hfind hinfo ht h in
theorem guestLink_picStub_target_pic :
    runToBranch (guestLinked [picApp, fooLibrary] (freshEnv picStubSetup)).mem 3 0x1000 (fun _ => 0) =
      some (picStubSetup.read (0x1000 + 12 + picStubSetup.read (⟨0x1000, 16, some "_foo"⟩ : Stub).cell)) :=
  guestLink_picStub_target (t := ⟨0x1000, 16, some "_foo"⟩)
    (show findStubs [picApp, fooLibrary] 0x1000 = some picStubs from rfl) rfl (by decide)
    (show doLazyLink [] [picApp, fooLibrary] 0x1000 (freshEnv picStubSetup) =
      .ok (none, guestLinked [picApp, fooLibrary] (freshEnv picStubSetup)) from rfl)
    rfl (separate_of_toNat (by decide) (by decide)) (separate_of_toNat (by decide) (by decide)) (fun _ => 0)

end GuestLink

/-- The linker resolves `_foo` to `0x2000` and writes it to `0x1000 + 0x100 + 8`, while the restored
stub loads its target from `0x1000 + 12 + 0x100`, which still holds 0. -/
theorem picStub_link_misses_target :
    (match (do
        let mem1 ← setupLazyLinking picApp picStubMem
        doLazyLink ([] : List (List (String × Nat))) [picApp, fooLibrary] 0x1000
          (⟨Dyld.new, mem1, ⟨fun _ => 0, 0, fun _ => none⟩, ()⟩ : Environment Nat Unit)) with
      | .ok (none, env2) =>
        env2.mem.read 0x1108 == 0x2000 && runToBranch env2.mem 3 0x1000 (fun _ => 0) == some 0
      | _ => false) = true := by
  decide

end TouchHLE.Dyld
