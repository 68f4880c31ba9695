import TouchHLE.Dyld.Basic

namespace TouchHLE

structure Dyld (F : Type) where
  linkedHostFunctions : List F
  returnToHostRoutine : Option GuestFunction

/-- The part of touchHLE's `Environment` the linker reads and writes: `F` stands for host
functions, `σ` for the state of the object runtime. -/
structure Environment (F σ : Type) where
  dyld : Dyld F
  mem : Mem
  cpu : Cpu
  objc : σ

namespace Dyld

variable {F σ : Type}

def new : Dyld F := ⟨[], none⟩

def stubSection (bin : MachO) : Option Section :=
  bin.getSection "__symbol_stub4" <|> bin.getSection "__picsymbolstub4"

def stubInstructions (entrySize : GuestUSize) : Except String (List (BitVec 32)) :=
  if entrySize = 12 then .ok symbolStubInstructions
  else if entrySize = 16 then .ok picSymbolStubInstructions
  else .error "internal error: entered unreachable code"

def wordsMatch (mem : Mem) (ptr : VAddr) : List (BitVec 32) → Bool
  | [] => true
  | w :: ws => mem.read ptr == w && wordsMatch mem (ptr + 4) ws

def writeWords (mem : Mem) (ptr : VAddr) : List (BitVec 32) → Mem
  | [] => mem
  | w :: ws => writeWords (mem.write ptr w) (ptr + 4) ws

/-- One iteration of the loop of `setupLazyLinking`, for the stub at `ptr`. -/
def setupStub (expected : List (BitVec 32)) (entrySize : GuestUSize) (mem : Mem) (ptr : VAddr) :
    Except String Mem := do
  Rust.assert (wordsMatch mem ptr expected)
    "assertion failed: mem.read(ptr + j.try_into().unwrap()) == instr"
  let svc ← encodeA32Svc svcLazyLink
  let mem := (mem.write ptr svc).write (ptr + 4) encodeA32Ret
  pure (if entrySize = 16 then mem.write (ptr + 8) encodeA32Trap else mem)

/-- Rewrite every stub of a binary to trap into the lazy linker and then return. -/
def setupLazyLinking (bin : MachO) (mem : Mem) : Except String Mem :=
  match stubSection bin with
  | none => pure mem
  | some stubs => do
    let info ← Rust.unwrap stubs.dyldIndirectSymbolInfo
    let expected ← stubInstructions info.entrySize
    Rust.assert (stubs.size % info.entrySize == 0) "assertion failed: stubs.size % entry_size == 0"
    let stubCount := stubs.size / info.entrySize
    (List.range stubCount.toNat).foldlM
      (fun mem i => setupStub expected info.entrySize mem (stubs.addr + BitVec.ofNat 32 i * info.entrySize))
      mem

def linkExternalRelocation (objc : ObjC σ) (binName : String) (acc : σ × Mem × List String)
    (reloc : VAddr × String) : σ × Mem × List String :=
  match Rust.stripPrefix "_OBJC_CLASS_$_" reloc.2 with
  | some name =>
    let (ptr, s) := objc.linkClass name false acc.1
    (s, acc.2.1.write reloc.1 ptr, acc.2.2)
  | none =>
    match Rust.stripPrefix "_OBJC_METACLASS_$_" reloc.2 with
    | some name =>
      let (ptr, s) := objc.linkClass name true acc.1
      (s, acc.2.1.write reloc.1 ptr, acc.2.2)
    | none =>
      (acc.1, acc.2.1, acc.2.2 ++ ["Warning: unhandled external relocation " ++ Rust.debugStr reloc.2 ++
        " at " ++ Rust.hex reloc.1 ++ " in " ++ Rust.debugStr binName])

def warnNonLazySymbol (bin : MachO) (ptrs : Section) (info : DyldIndirectSymbolInfo)
    (warnings : List String) (i : Nat) : Except String (List String) := do
  match ← Rust.index info.indirectUndefSymbols i with
  | none => pure warnings
  | some symbol =>
    let ptr := ptrs.addr + BitVec.ofNat 32 i * info.entrySize
    pure (warnings ++ ["Warning: unhandled non-lazy symbol " ++ Rust.debugStr symbol ++ " at " ++
      Rust.hex ptr ++ " in " ++ Rust.debugStr bin.name])

/-- Link non-lazy symbols: Objective-C class references are resolved through the object
runtime; everything else only gets a warning. -/
def doNonLazyLinking (objc : ObjC σ) (bin : MachO) (s : σ) (mem : Mem) :
    Except String (σ × Mem × List String) := do
  let (s, mem, warnings) := bin.externalRelocations.foldl (linkExternalRelocation objc bin.name) (s, mem, [])
  match bin.getSection "__nl_symbol_ptr" with
  | none => pure (s, mem, warnings)
  | some ptrs =>
    let info ← Rust.unwrap ptrs.dyldIndirectSymbolInfo
    Rust.assert (info.entrySize == 4) "assertion failed: entry_size == 4"
    Rust.assert (ptrs.size % info.entrySize == 0) "assertion failed: ptrs.size % entry_size == 0"
    let ptrCount := ptrs.size / info.entrySize
    let warnings ← (List.range ptrCount.toNat).foldlM (warnNonLazySymbol bin ptrs info) warnings
    pure (s, mem, warnings)

/-- One iteration of the loop of `doInitialLinking`: lazy stubs first, then non-lazy symbols. -/
def linkBinary (objc : ObjC σ) (acc : σ × Mem × List String) (bin : MachO) :
    Except String (σ × Mem × List String) := do
  let mem ← setupLazyLinking bin acc.2.1
  let (s, mem, ws) ← doNonLazyLinking objc bin acc.1 mem
  pure (s, mem, acc.2.2 ++ ws)

/-- Linking right after loading. `allocated` is the address `mem.alloc(4 * 2)` returns for
the return-to-host routine; the warnings are what is printed to stderr. -/
def doInitialLinking (objc : ObjC σ) (bins : List MachO) (allocated : VAddr) (env : Environment F σ) :
    Except String (Environment F σ × List String) := do
  Rust.assert env.dyld.returnToHostRoutine.isNone
    "assertion failed: self.return_to_host_routine.is_none()"
  let routine0 ← encodeA32Svc svcReturnToHost
  let mem := (env.mem.write allocated routine0).write (allocated + 4) encodeA32Trap
  let ptr := GuestFunction.fromAddrWithThumbBit allocated
  Rust.assert (!ptr.isThumb) "assertion failed: !ptr.is_thumb()"
  let bin0 ← Rust.index bins 0
  let s := objc.registerHostSelectors (objc.registerBinSelectors bin0 env.objc)
  let (s, mem, warnings) ← bins.foldlM (linkBinary objc) (s, mem, [])
  let s := objc.registerBinCategories bin0 (objc.registerBinClasses bin0 s)
  pure ({ env with dyld := { env.dyld with returnToHostRoutine := some ptr }, mem := mem, objc := s },
    warnings)

def findStubs (bins : List MachO) (svcPc : VAddr) : Option Section :=
  (bins.filterMap stubSection).find? fun stubs => stubs.addr ≤ svcPc && svcPc < stubs.addr + stubs.size

/-- The `__la_symbol_ptr` cell of the stub at `stub`, from its trailing data cell: an absolute
address in the 12-byte layout, an offset from the stub plus 8 in the 16-byte one. -/
def laSymbolPtr (entrySize : GuestUSize) (stub cell : VAddr) : VAddr :=
  if entrySize = 12 then cell else stub + cell + 8

/-- The host path of `doLazyLink`: allocate the next SVC ID and make the stub call it. -/
def linkHostFunction (f : F) (svcPc : VAddr) (env : Environment F σ) :
    Except String (Option F × Environment F σ) := do
  let n := env.dyld.linkedHostFunctions.length
  Rust.assert (n < 2 ^ 32) "called `Result::unwrap()` on an `Err` value: TryFromIntError(())"
  let svc := BitVec.ofNat 32 n + svcLinkedFunctionsBase
  let dyld := { env.dyld with linkedHostFunctions := env.dyld.linkedHostFunctions ++ [f] }
  let mem := env.mem.write svcPc (← encodeA32Svc svc)
  Rust.assert (mem.read (svcPc + 4) == encodeA32Ret)
    "assertion failed: mem.read(stub_function_ptr + 1) == encode_a32_ret()"
  pure (some f, { env with dyld := dyld, mem := mem, cpu := env.cpu.invalidateCacheRange svcPc 4 })

/-- The guest path of `doLazyLink`: restore the original stub and fill in its lazy pointer. -/
def linkGuestFunction (info : DyldIndirectSymbolInfo) (svcPc addr : VAddr) (env : Environment F σ) :
    Except String (Option F × Environment F σ) := do
  let original ← stubInstructions info.entrySize
  let instructionCount : GuestUSize := BitVec.ofNat 32 original.length
  let mem := writeWords env.mem svcPc original
  let cpu := env.cpu.invalidateCacheRange svcPc (instructionCount * 4)
  let ptr := laSymbolPtr info.entrySize svcPc (mem.read (svcPc + instructionCount * 4))
  pure (none, { env with mem := mem.write ptr addr, cpu := cpu })

/-- The two tiers of lazy resolution: the host functions `lists` first, then the exports of
every binary but the first; a symbol found in neither is a fatal error. -/
def linkSymbol (lists : List (List (String × F))) (bins : List MachO) (info : DyldIndirectSymbolInfo)
    (svcPc : VAddr) (symbol : String) (env : Environment F σ) : Except String (Option F × Environment F σ) :=
  match searchLists lists symbol with
  | some f => linkHostFunction f svcPc env
  | none =>
    match (bins.drop 1).findSome? (fun dylib => dylib.exportedSymbols.lookup symbol) with
    | some addr => linkGuestFunction info svcPc addr env
    | none => .error ("Call to unimplemented function " ++ symbol)

/-- Resolve the stub that trapped at `svcPc`. -/
def doLazyLink (lists : List (List (String × F))) (bins : List MachO) (svcPc : VAddr)
    (env : Environment F σ) : Except String (Option F × Environment F σ) := do
  let stubs ← Rust.unwrap (findStubs bins svcPc)
  let info ← Rust.unwrap stubs.dyldIndirectSymbolInfo
  let offset := svcPc - stubs.addr
  Rust.assert (offset % info.entrySize == 0) "assertion failed: offset % info.entry_size == 0"
  let symbol ← Rust.unwrap (← Rust.index info.indirectUndefSymbols (offset / info.entrySize).toNat)
  linkSymbol lists bins info svcPc symbol env

/-- The host function for an SVC at `svcPc`; `none` means execution resumes at `svcPc`. -/
def getSvcHandler (lists : List (List (String × F))) (bins : List MachO) (svcPc svc : BitVec 32)
    (env : Environment F σ) : Except String (Option F × Environment F σ) :=
  if svc = svcLazyLink then doLazyLink lists bins svcPc env
  else if svc = svcReturnToHost then .error "internal error: entered unreachable code"
  else
    match env.dyld.linkedHostFunctions[(svc - svcLinkedFunctionsBase).toNat]? with
    | some f => .ok (some f, env)
    | none => .error ("Unexpected SVC #" ++ toString svc.toNat ++ " at " ++ Rust.hex svcPc)

end Dyld

end TouchHLE
