import TouchHLE.Mem

namespace TouchHLE.A32

/-- Modelled from the spec: dynarmic, which executes guest code, is not in src/. The A32 forms
the stub templates are made of, each with condition AL: `ldr rt, [rn, #+imm12]` and
`add rd, rn, rm`. -/
inductive Instr
  | ldrImm (rt rn : Fin 16) (imm : BitVec 32)
  | addReg (rd rn rm : Fin 16)
  deriving DecidableEq

def PC : Fin 16 := 15

/-- The register number in bits `lo + 3 .. lo` of an instruction word. -/
def field (w : BitVec 32) (lo : Nat) : Fin 16 := Fin.ofNat (w.toNat / 2 ^ lo)

def decode (w : BitVec 32) : Option Instr :=
  if w &&& 0xfff00000#32 = 0xe5900000#32 then some (.ldrImm (field w 12) (field w 16) (w &&& 0xfff#32))
  else if w &&& 0xfff00ff0#32 = 0xe0800000#32 then some (.addReg (field w 12) (field w 16) (field w 0))
  else none

/-- A register as the instruction at `pc` reads it: PC reads as the instruction's address plus 8. -/
def readReg (regs : Fin 16 → BitVec 32) (pc : VAddr) (r : Fin 16) : BitVec 32 :=
  if r = PC then pc + 8 else regs r

/-- One instruction at `pc`: the registers after it, and the branch target if it writes PC. -/
def exec (mem : Mem) (pc : VAddr) (regs : Fin 16 → BitVec 32) : Instr → (Fin 16 → BitVec 32) × Option VAddr
  | .ldrImm rt rn imm =>
    let v := mem.read (readReg regs pc rn + imm)
    if rt = PC then (regs, some v) else (Function.update regs rt v, none)
  | .addReg rd rn rm =>
    let v := readReg regs pc rn + readReg regs pc rm
    if rd = PC then (regs, some v) else (Function.update regs rd v, none)

/-- Straight-line execution from `pc` up to the first write of PC, in at most `fuel` instructions:
the address execution continues at. -/
def runToBranch (mem : Mem) : Nat → VAddr → (Fin 16 → BitVec 32) → Option VAddr
  | 0, _, _ => none
  | fuel + 1, pc, regs =>
    match decode (mem.read pc) with
    | none => none
    | some i =>
      match exec mem pc regs i with
      | (_, some target) => some target
      | (regs', none) => runToBranch mem fuel (pc + 4) regs'

end TouchHLE.A32
