import TouchHLE.Mem

namespace TouchHLE

/-- Modelled from the spec: `crate::abi` is not in src/. A guest function is an address
together with the Thumb flag, which is merged into bit 0 when it is entered into LR. -/
structure GuestFunction where
  bits : BitVec 32
deriving DecidableEq

namespace GuestFunction

def thumbBit : BitVec 32 := 0x1

def fromAddrWithThumbBit (addr : BitVec 32) : GuestFunction := ⟨addr⟩

def fromAddrAndThumbFlag (addr : BitVec 32) (thumb : Bool) : GuestFunction :=
  fromAddrWithThumbBit (addr ||| BitVec.ofNat 32 thumb.toNat * thumbBit)

def addrWithThumbBit (f : GuestFunction) : BitVec 32 := f.bits

def addrWithoutThumbBit (f : GuestFunction) : BitVec 32 := f.bits &&& ~~~thumbBit

def isThumb (f : GuestFunction) : Bool := f.bits &&& thumbBit == thumbBit

end GuestFunction

/-- The register file and CPSR of dynarmic, and its translation cache: an instruction word
is cached when first executed and dropped only by `invalidateCacheRange`. -/
structure Cpu where
  regs : Fin 16 → BitVec 32
  cpsr : BitVec 32
  cache : VAddr → Option (BitVec 32)

/-- Why CPU execution ended. -/
inductive CpuState
  | normal
  | svc (n : BitVec 32)
deriving DecidableEq

namespace Cpu

def LR : Fin 16 := 14

def PC : Fin 16 := 15

def cpsrThumb : BitVec 32 := 0x00000020

def pcWithThumbBit (cpu : Cpu) : GuestFunction :=
  GuestFunction.fromAddrAndThumbFlag (cpu.regs PC) (cpu.cpsr &&& cpsrThumb == cpsrThumb)

/-- Set PC and the Thumb flag for executing a guest function; LR is not touched. -/
def branch (cpu : Cpu) (newPc : GuestFunction) : Cpu :=
  let cpu := { cpu with regs := Function.update cpu.regs PC newPc.addrWithoutThumbBit }
  let cpsrWithoutThumb := cpu.cpsr &&& ~~~cpsrThumb
  { cpu with cpsr := cpsrWithoutThumb ||| BitVec.ofNat 32 newPc.isThumb.toNat * cpsrThumb }

def branchWithLink (cpu : Cpu) (newPc newLr : GuestFunction) :
    (GuestFunction × GuestFunction) × Cpu :=
  let oldPc := cpu.pcWithThumbBit
  let oldLr := GuestFunction.fromAddrWithThumbBit (cpu.regs LR)
  let cpu := cpu.branch newPc
  ((oldPc, oldLr), { cpu with regs := Function.update cpu.regs LR newLr.addrWithThumbBit })

/-- Whether the cached word at `a` overlaps the `size` bytes from `base`. -/
def Overlaps (a base : VAddr) (size : GuestUSize) : Prop :=
  ∃ k : Fin 4, inRange base size.toNat (a + BitVec.ofNat 32 k)

instance (a base : VAddr) (size : GuestUSize) : Decidable (Overlaps a base size) :=
  inferInstanceAs (Decidable (∃ _ : Fin 4, _))

def invalidateCacheRange (cpu : Cpu) (base : VAddr) (size : GuestUSize) : Cpu :=
  { cpu with cache := fun a => if Overlaps a base size then none else cpu.cache a }

/-- Executing the word at `a` reads the translation cache, filled from memory on a miss. -/
def fetch (cpu : Cpu) (mem : Mem) (a : VAddr) : BitVec 32 × Cpu :=
  match cpu.cache a with
  | some w => (w, cpu)
  | none => (mem.read a, { cpu with cache := Function.update cpu.cache a (some (mem.read a)) })

/-- The end of `Cpu::run`: `res` is what dynarmic's run returned, `ticks` what is left. -/
def runResult (res : Int) (ticks : Nat) : Except String CpuState :=
  if res = -1 then
    if ticks = 0 then .ok .normal else .error "assertion failed: *ticks == 0"
  else if res < -1 then .error "Unexpected CPU execution result"
  else .ok (.svc (BitVec.ofInt 32 res))

theorem and_twoPow_beq (x : BitVec 32) {k : Nat} (hk : k < 32) :
    (x &&& BitVec.twoPow 32 k == BitVec.twoPow 32 k) = x.getLsbD k := by
  by_cases h : x.getLsbD k
  · rw [h, beq_iff_eq]
    ext ⟨i, hi⟩
    by_cases hik : k = i
    · subst hik; simp [BitVec.getLsbD_and, h, hk]
    · simp [BitVec.getLsbD_and, hik]
  · rw [Bool.not_eq_true] at h
    rw [h, beq_eq_false_iff_ne]
    intro he
    have := congrArg (fun y : BitVec 32 => y.getLsbD k) he
    simp [BitVec.getLsbD_and, h, hk] at this

theorem cpsrThumb_eq : cpsrThumb = BitVec.twoPow 32 5 := by decide

theorem thumbBit_eq : GuestFunction.thumbBit = BitVec.twoPow 32 0 := by decide

theorem isThumb_eq (f : GuestFunction) : f.isThumb = f.bits.getLsbD 0 := by
  rw [GuestFunction.isThumb, thumbBit_eq, and_twoPow_beq _ (by omega)]

theorem getLsbD_merge (x : BitVec 32) (b : Bool) (mask : BitVec 32) (i : Nat) :
    ((x &&& ~~~mask) ||| BitVec.ofNat 32 b.toNat * mask).getLsbD i =
      if mask.getLsbD i then b else x.getLsbD i := by
  cases b <;> by_cases hm : mask.getLsbD i <;> simp [BitVec.getLsbD_and, BitVec.getLsbD_or, hm] <;>
    exact BitVec.lt_of_getLsbD

@[simp] theorem branch_regs (cpu : Cpu) (f : GuestFunction) :
    (cpu.branch f).regs = Function.update cpu.regs PC f.addrWithoutThumbBit := rfl

@[simp] theorem branch_cache (cpu : Cpu) (f : GuestFunction) : (cpu.branch f).cache = cpu.cache := rfl

theorem branch_cpsr_getLsbD (cpu : Cpu) (f : GuestFunction) (i : Nat) :
    (cpu.branch f).cpsr.getLsbD i = if i = 5 then f.isThumb else cpu.cpsr.getLsbD i := by
  simp only [branch, getLsbD_merge, cpsrThumb_eq, BitVec.getLsbD_twoPow]
  by_cases h : i = 5 <;> simp [h, eq_comm]

@[simp] theorem branchWithLink_fst (cpu : Cpu) (p l : GuestFunction) :
    (cpu.branchWithLink p l).1 = (cpu.pcWithThumbBit, GuestFunction.fromAddrWithThumbBit (cpu.regs LR)) :=
  rfl

theorem branchWithLink_snd (cpu : Cpu) (p l : GuestFunction) :
    (cpu.branchWithLink p l).2 =
      { cpu.branch p with regs := Function.update (cpu.branch p).regs LR l.addrWithThumbBit } :=
  rfl

theorem pcWithThumbBit_branch (cpu : Cpu) (f : GuestFunction) : (cpu.branch f).pcWithThumbBit = f := by
  have ht : ((cpu.branch f).cpsr &&& cpsrThumb == cpsrThumb) = f.bits.getLsbD 0 := by
    rw [cpsrThumb_eq, and_twoPow_beq _ (by omega), branch_cpsr_getLsbD, if_pos rfl, isThumb_eq]
  cases f with
  | mk bits =>
    simp only [pcWithThumbBit, GuestFunction.fromAddrAndThumbFlag, GuestFunction.fromAddrWithThumbBit,
      ht, branch_regs, Function.update_same, GuestFunction.addrWithoutThumbBit, GuestFunction.mk.injEq]
    ext i
    rw [getLsbD_merge, thumbBit_eq, BitVec.getLsbD_twoPow]
    by_cases h : (i : Nat) = 0
    · simp [h]
    · simp [Ne.symm h]

theorem branchWithLink_frame (cpu : Cpu) (p l : GuestFunction) :
    (∀ r, r ≠ PC → r ≠ LR → (cpu.branchWithLink p l).2.regs r = cpu.regs r) ∧
      (cpu.branchWithLink p l).2.cpsr &&& ~~~cpsrThumb = cpu.cpsr &&& ~~~cpsrThumb := by
  refine ⟨fun r hpc hlr => ?_, ?_⟩
  · simp [branchWithLink_snd, Function.update_noteq hlr, Function.update_noteq hpc]
  · ext i
    simp only [branchWithLink_snd, BitVec.getLsbD_and, BitVec.getLsbD_not, branch_cpsr_getLsbD,
      cpsrThumb_eq, BitVec.getLsbD_twoPow]
    by_cases h : (i : Nat) = 5 <;> simp [h]

theorem cache_fetch {cpu : Cpu} {mem : Mem} {a b : VAddr} {w : BitVec 32} (h : (cpu.fetch mem b).2.cache a = some w) :
    cpu.cache a = some w ∨ (a = b ∧ w = mem.read b) := by
  unfold fetch at h
  split at h
  · exact .inl h
  · dsimp only at h
    by_cases hab : a = b
    · subst hab
      rw [Function.update_same, Option.some.injEq] at h
      exact .inr ⟨rfl, h.symm⟩
    · rw [Function.update_noteq hab] at h
      exact .inl h

theorem cache_invalidateCacheRange {cpu : Cpu} {a base : VAddr} {size : GuestUSize} {w : BitVec 32}
    (h : (cpu.invalidateCacheRange base size).cache a = some w) : ¬ Overlaps a base size ∧ cpu.cache a = some w := by
  unfold invalidateCacheRange at h
  dsimp only at h
  split at h
  · cases h
  · exact ⟨‹_›, h⟩

theorem read_eq_of_not_overlaps {m m' : Mem} {a base : VAddr} {size : GuestUSize} (h : ¬ Overlaps a base size)
    (hframe : ∀ x, inRange a 4 x → ¬ inRange base size.toNat x → m'.bytes x = m.bytes x) : m'.read a = m.read a :=
  Mem.read_congr fun x hx => hframe x hx fun hin => h ⟨⟨(x - a).toNat, hx⟩, by
    rwa [show a + BitVec.ofNat 32 (x - a).toNat = x by rw [BitVec.ofNat_toNat, BitVec.setWidth_eq, add_comm, sub_add_cancel]]⟩

theorem addrWithoutThumbBit_fromAddrAndThumbFlag {addr : BitVec 32} (h : addr.getLsbD 0 = false)
    (t : Bool) : (GuestFunction.fromAddrAndThumbFlag addr t).addrWithoutThumbBit = addr := by
  ext i
  simp only [GuestFunction.addrWithoutThumbBit, GuestFunction.fromAddrAndThumbFlag,
    GuestFunction.fromAddrWithThumbBit, thumbBit_eq, BitVec.getLsbD_and, BitVec.getLsbD_not,
    BitVec.getLsbD_or]
  by_cases hi : (i : Nat) = 0
  · cases t <;> simp [hi, h]
  · cases t <;> simp [hi, Ne.symm hi]

theorem isThumb_fromAddrAndThumbFlag {addr : BitVec 32} (h : addr.getLsbD 0 = false) (t : Bool) :
    (GuestFunction.fromAddrAndThumbFlag addr t).isThumb = t := by
  cases t <;> simp [isThumb_eq, GuestFunction.fromAddrAndThumbFlag, GuestFunction.fromAddrWithThumbBit,
    thumbBit_eq, BitVec.getLsbD_or, h]

theorem branchWithLink_replay_restores (cpu later : Cpu) (hpc : (cpu.regs PC).getLsbD 0 = false)
    (p l : GuestFunction) :
    let back := (later.branchWithLink (cpu.branchWithLink p l).1.1 (cpu.branchWithLink p l).1.2).2
    back.regs PC = cpu.regs PC ∧ back.regs LR = cpu.regs LR ∧
      back.cpsr &&& cpsrThumb = cpu.cpsr &&& cpsrThumb := by
  have hlp : LR ≠ PC := by decide
  refine ⟨?_, ?_, ?_⟩
  · simp [branchWithLink_snd, Function.update_noteq hlp.symm, pcWithThumbBit,
      addrWithoutThumbBit_fromAddrAndThumbFlag hpc]
  · simp [branchWithLink_snd, GuestFunction.addrWithThumbBit, GuestFunction.fromAddrWithThumbBit]
  · ext i
    simp only [branchWithLink_snd, BitVec.getLsbD_and, branch_cpsr_getLsbD, cpsrThumb_eq,
      BitVec.getLsbD_twoPow, branchWithLink_fst, pcWithThumbBit, isThumb_fromAddrAndThumbFlag hpc,
      and_twoPow_beq _ (show 5 < 32 by omega)]
    by_cases h : (i : Nat) = 5
    · simp [h]
    · simp [h, Ne.symm h]

theorem branchWithLink_restores (cpu later : Cpu) (hpc : (cpu.regs PC).getLsbD 0 = false)
    (p l f : GuestFunction) :
    (let back := (later.branchWithLink (cpu.branchWithLink p l).1.1 (cpu.branchWithLink p l).1.2).2;
      back.regs PC = cpu.regs PC ∧ back.regs LR = cpu.regs LR ∧
        back.cpsr &&& cpsrThumb = cpu.cpsr &&& cpsrThumb) ∧
    (∀ (c : Cpu) (q r : GuestFunction),
      (∀ i, i ≠ PC → i ≠ LR → (c.branchWithLink q r).2.regs i = c.regs i) ∧
        (c.branchWithLink q r).2.cpsr &&& ~~~cpsrThumb = c.cpsr &&& ~~~cpsrThumb) ∧
    (cpu.branch f).pcWithThumbBit = f :=
  ⟨branchWithLink_replay_restores cpu later hpc p l, branchWithLink_frame, pcWithThumbBit_branch cpu f⟩

def thumbCaller : Cpu := ⟨fun i => if i = PC then 0x1000 else 0, 0x20, fun _ => none⟩

theorem branchWithLink_restores_thumbCaller :
    (thumbCaller.regs PC).getLsbD 0 = false ∧
    ((let back := ((thumbCaller.branchWithLink ⟨0x2001⟩ ⟨0x3000⟩).2.branchWithLink
          (thumbCaller.branchWithLink ⟨0x2001⟩ ⟨0x3000⟩).1.1 (thumbCaller.branchWithLink ⟨0x2001⟩ ⟨0x3000⟩).1.2).2;
        back.regs PC = thumbCaller.regs PC ∧ back.regs LR = thumbCaller.regs LR ∧
          back.cpsr &&& cpsrThumb = thumbCaller.cpsr &&& cpsrThumb) ∧
      (∀ (c : Cpu) (q r : GuestFunction),
        (∀ i, i ≠ PC → i ≠ LR → (c.branchWithLink q r).2.regs i = c.regs i) ∧
          (c.branchWithLink q r).2.cpsr &&& ~~~cpsrThumb = c.cpsr &&& ~~~cpsrThumb) ∧
      (thumbCaller.branch ⟨0x4001⟩).pcWithThumbBit = ⟨0x4001⟩) :=
  ⟨by decide, branchWithLink_restores thumbCaller (thumbCaller.branchWithLink ⟨0x2001⟩ ⟨0x3000⟩).2 (by decide)
    ⟨0x2001⟩ ⟨0x3000⟩ ⟨0x4001⟩⟩

end Cpu

end TouchHLE
