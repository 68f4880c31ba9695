import TouchHLE.Cpu
import TouchHLE.Rust

namespace TouchHLE

/-- Modelled from the spec: `crate::mach_o` is not in src/. A loaded binary is read-only to
the linker: its sections, its exported symbols and its external relocations. -/
structure DyldIndirectSymbolInfo where
  entrySize : GuestUSize
  indirectUndefSymbols : List (Option String)

structure Section where
  name : String
  addr : VAddr
  size : GuestUSize
  dyldIndirectSymbolInfo : Option DyldIndirectSymbolInfo

structure MachO where
  name : String
  sections : List Section
  exportedSymbols : List (String × VAddr)
  externalRelocations : List (VAddr × String)

def MachO.getSection (bin : MachO) (name : String) : Option Section :=
  bin.sections.find? (·.name == name)

/-- Modelled from the spec: `crate::objc` is not in src/. The object runtime is reached through
its registration entry points and its class resolution, which returns a reference. -/
structure ObjC (σ : Type) where
  registerBinSelectors : MachO → σ → σ
  registerHostSelectors : σ → σ
  linkClass : String → Bool → σ → VAddr × σ
  registerBinClasses : MachO → σ → σ
  registerBinCategories : MachO → σ → σ

namespace Dyld

def searchLists {T : Type} (lists : List (List (String × T))) (symbol : String) : Option T :=
  (lists.flatten.find? (fun e => e.1 == symbol)).map Prod.snd

def encodeA32Svc (imm : BitVec 32) : Except String (BitVec 32) :=
  if imm &&& 0xff000000#32 = 0#32 then .ok (imm ||| 0xef000000#32)
  else .error "assertion failed: imm & 0xff000000 == 0"

def encodeA32Ret : BitVec 32 := 0xe12fff1e#32

def encodeA32Trap : BitVec 32 := 0xe7ffdefe#32

def svcLazyLink : BitVec 32 := 0

def svcReturnToHost : BitVec 32 := 1

def svcLinkedFunctionsBase : BitVec 32 := svcReturnToHost + 1

def symbolStubInstructions : List (BitVec 32) := [0xe59fc000#32, 0xe59cf000#32]

def picSymbolStubInstructions : List (BitVec 32) := [0xe59fc004#32, 0xe08fc00c#32, 0xe59cf000#32]

/-- The immediate of an SVC word, as the CPU hands it to the trap handler. -/
def svcImm (w : BitVec 32) : Option (BitVec 32) :=
  if w.toNat / 2 ^ 24 = 0xef then some (BitVec.ofNat 32 (w.toNat % 2 ^ 24)) else none

theorem mask_high (imm : BitVec 32) : imm &&& 0xff000000#32 = (imm >>> 24) <<< 24 := by
  rw [show 0xff000000#32 = BitVec.allOnes 32 <<< 24 by decide]
  ext ⟨i, hi⟩
  simp only [BitVec.getLsbD_and, BitVec.getLsbD_shiftLeft, BitVec.getLsbD_allOnes,
    BitVec.getLsbD_ushiftRight]
  by_cases h : i < 24
  · simp [h]
  · simp [h, hi, show 24 + (i - 24) = i by omega, show i - 24 < 32 by omega]

theorem and_high_eq_zero_iff (imm : BitVec 32) : imm &&& 0xff000000#32 = 0#32 ↔ imm.toNat < 2 ^ 24 := by
  rw [mask_high]
  constructor
  · intro h
    have := congrArg BitVec.toNat h
    simp only [BitVec.toNat_shiftLeft, BitVec.toNat_ushiftRight, BitVec.toNat_ofNat] at this
    omega
  · intro h
    apply BitVec.eq_of_toNat_eq
    simp only [BitVec.toNat_shiftLeft, BitVec.toNat_ushiftRight, BitVec.toNat_ofNat]
    rw [Nat.shiftRight_eq_div_pow, Nat.div_eq_of_lt h]
    simp

theorem toNat_or_svc (imm : BitVec 32) (h : imm &&& 0xff000000#32 = 0#32) :
    (imm ||| 0xef000000#32).toNat = imm.toNat + 0xef000000 := by
  have h' : imm &&& 0xef000000#32 = 0#32 := by
    rw [show 0xef000000#32 = 0xff000000#32 &&& 0xef000000#32 by decide, ← BitVec.and_assoc, h,
      BitVec.zero_and]
  rw [← BitVec.add_eq_or_of_and_eq_zero _ _ h', BitVec.toNat_add_of_and_eq_zero h']
  rfl

theorem encodeA32Svc_eq_ok_iff {imm w : BitVec 32} :
    encodeA32Svc imm = .ok w ↔ imm.toNat < 2 ^ 24 ∧ w.toNat = imm.toNat + 0xef000000 := by
  unfold encodeA32Svc
  split
  · rename_i h
    rw [Except.ok.injEq, ← toNat_or_svc imm h, ← BitVec.toNat_eq, eq_comm]
    exact ⟨fun he => ⟨(and_high_eq_zero_iff imm).mp h, he⟩, fun he => he.2⟩
  · rename_i h
    simp only [reduceCtorEq, false_iff, not_and]
    exact fun hlt => absurd ((and_high_eq_zero_iff imm).mpr hlt) h

theorem encodeA32Svc_inj {a b w : BitVec 32} (ha : encodeA32Svc a = .ok w) (hb : encodeA32Svc b = .ok w) :
    a = b := by
  rw [encodeA32Svc_eq_ok_iff] at ha hb
  exact BitVec.eq_of_toNat_eq (by omega)

theorem encodeA32Svc_of_lt {imm : BitVec 32} (h : imm.toNat < 2 ^ 24) :
    encodeA32Svc imm = .ok (BitVec.ofNat 32 (imm.toNat + 0xef000000)) := by
  rw [encodeA32Svc_eq_ok_iff, BitVec.toNat_ofNat]
  omega

theorem encodeA32Svc_ne_of_lt {imm w : BitVec 32} (hw : w.toNat < 0xef000000) :
    encodeA32Svc imm ≠ .ok w := by
  rw [Ne, encodeA32Svc_eq_ok_iff]
  omega

theorem svcImm_eq_some_iff {w c : BitVec 32} : svcImm w = some c ↔ encodeA32Svc c = .ok w := by
  rw [encodeA32Svc_eq_ok_iff, svcImm]
  have hw := w.isLt
  constructor
  · intro h
    split at h
    · rw [Option.some.injEq] at h
      subst h
      simp only [BitVec.toNat_ofNat]
      omega
    · cases h
  · rintro ⟨hc, hw'⟩
    rw [if_pos (by omega), Option.some.injEq]
    exact BitVec.eq_of_toNat_eq (by simp only [BitVec.toNat_ofNat]; omega)

end Dyld

end TouchHLE
