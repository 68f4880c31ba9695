import TouchHLE.Dyld.Dispatch

namespace TouchHLE.Dyld

open Cpu

variable {F σ : Type}

/-- The word addresses of the stubs: their instruction words and their data cells. -/
def StubWord (bins : List MachO) (a : VAddr) : Prop :=
  ∃ t ∈ allStubs bins, ∃ j, 4 * j < t.entrySize.toNat ∧ a = t.start + BitVec.ofNat 32 (4 * j)

def CacheCoherent (bins : List MachO) (env : Environment F σ) : Prop :=
  ∀ a, StubWord bins a → ∀ w, env.cpu.cache a = some w → w = env.mem.read a

section Run

variable {L : Loaded F σ} (hwf : WellFormed L) {env env' : Environment F σ}
include hwf

theorem stub_of_stubWord {a : VAddr} (ha : StubWord L.bins a) :
    ∃ t ∈ allStubs L.bins, ∀ x, inRange a 4 x → inRange t.start t.entrySize.toNat x := by
  obtain ⟨t, ht, j, hj, rfl⟩ := ha
  refine ⟨t, ht, fun x hx => ?_⟩
  have h4 : 4 * j + 4 ≤ t.entrySize.toNat := by
    obtain ⟨ws, hws, -⟩ := hwf.template t ht
    rcases stubInstructions_entrySize hws with h | h <;> omega
  rw [inRange_add_iff (by have := t.entrySize.isLt; omega)] at hx
  unfold inRange
  omega

theorem coherent_lazyLink (hinv : Inv L env) (hc : CacheCoherent L.bins env) {t : Stub} (ht : t ∈ allStubs L.bins)
    {f : Option F} (h : doLazyLink L.lists L.bins t.start env = .ok (f, env')) : CacheCoherent L.bins env' := by
  obtain ⟨s, hfind⟩ := findStubs_of_doLazyLink h
  obtain ⟨info, hinfo, hts⟩ := findStubs_of_mem_allStubs hwf.disjoint ht hfind
  intro a ha v hv
  obtain ⟨sym, -, ⟨g, w, -, -, -, -, hr⟩ | ⟨addr, ws, -, -, hws, hr⟩⟩ := doLazyLink_cases hfind hinfo hts h <;>
    obtain ⟨-, rfl⟩ := Prod.mk.inj hr
  · obtain ⟨hov, hv⟩ := cache_invalidateCacheRange hv
    exact (hc a ha v hv).trans
      (read_eq_of_not_overlaps hov fun x _ hx => Mem.bytes_write_of_not_inRange hx).symm
  · obtain ⟨hov, hv⟩ := cache_invalidateCacheRange hv
    rw [← entrySize_of_mem_stubsOf hts] at hws ⊢
    have hlen := (stubInstructions_length hws).1
    have hes := t.entrySize.isLt
    obtain ⟨t', ht', hin⟩ := stub_of_stubWord hwf ha
    refine (hc a ha v hv).trans (read_eq_of_not_overlaps hov fun x hx hout => ?_).symm
    obtain ⟨s', hs', hxs⟩ := exists_section_of_stub ht' (hin x hx)
    rw [ofNat_mul_four, BitVec.toNat_ofNat, Nat.mod_eq_of_lt (by omega)] at hout
    rw [Mem.bytes_write_of_not_inRange fun h => lazyPointer_separate hwf ht hinv hws s' hs' x h hxs,
      writeWords_bytes_of_not_inRange (by omega) hout]

theorem coherent_step (hinv : Inv L env) (hc : CacheCoherent L.bins env) (h : Step L env env') :
    CacheCoherent L.bins env' := by
  cases h with
  | trap ht hcode hc1 hget =>
    rcases trap_cases hinv ht hcode hc1 hget with ⟨hu, -, hlink⟩ | ⟨-, rfl⟩
    · exact coherent_lazyLink hwf hinv hc ht hlink
    · exact hc
  | exec b =>
    intro a ha w hw
    rcases cache_fetch hw with hw | ⟨rfl, rfl⟩
    · exact hc a ha w hw
    · rfl

theorem reachable_coherent (hrel : ClassRefsOutsideStubs L.bins) (hcache : L.cpu.cache = fun _ => none)
    (h : Reachable L env) : Inv L env ∧ CacheCoherent L.bins env := by
  induction h with
  | init h =>
    obtain ⟨-, hcpu, -⟩ := init_stubs hwf hrel h
    refine ⟨init_inv hwf hrel h, fun a _ w hw => ?_⟩
    rw [hcpu, hcache] at hw
    cases hw
  | step _ hstep ih => exact ⟨(step_inv hwf ih.1 hstep).1, coherent_step hwf ih.1 ih.2 hstep⟩

end Run


section Claim

variable {L : Loaded F σ} {env : Environment F σ}

/-- Instruction-cache coherence of stub patching: in every state of a run that starts with an
empty translation cache, the cached word at every stub word is the word in guest memory, so
executing a stub runs what memory holds. -/
theorem stub_cache_coherent (hwf : WellFormed L) (hrel : ClassRefsOutsideStubs L.bins)
    (hcache : L.cpu.cache = fun _ => none) (h : Reachable L env) :
    ∀ a, StubWord L.bins a → (∀ w, env.cpu.cache a = some w → w = env.mem.read a) ∧
      (env.cpu.fetch env.mem a).1 = env.mem.read a := fun a ha => by
  have hc := (reachable_coherent hwf hrel hcache h).2 a ha
  refine ⟨hc, ?_⟩
  unfold Cpu.fetch
  split
  · exact hc _ ‹_›
  · rfl

end Claim

theorem stub_cache_coherent_linked :
    (∀ w, linkedEnv.cpu.cache 0x1000 = some w → w = linkedEnv.mem.read 0x1000) ∧
      (linkedEnv.cpu.fetch linkedEnv.mem 0x1000).1 = linkedEnv.mem.read 0x1000 :=
  stub_cache_coherent linked_wellFormed linked_outside rfl linked_reachable 0x1000
    ⟨⟨0x1000, 12, some "_bar"⟩, by decide, 0, by decide, by decide⟩

def adjacentStubs : Section := ⟨"__symbol_stub4", 0x1000, 24, some ⟨12, [some "_foo", some "_foo"]⟩⟩

def adjacentApp : MachO := ⟨"app", [adjacentStubs], [], []⟩

def adjacentLoaded : Loaded Nat Unit where
  lists := []
  bins := [adjacentApp, fooLibrary]
  objc := ⟨fun _ s => s, fun s => s, fun _ _ s => (0, s), fun _ s => s, fun _ s => s⟩
  allocated := 0x5000
  mem := (((fooStubMem 0x100c).write 0x100c 0xe59fc000#32).write 0x1010 0xe59cf000#32).write 0x1014 0x3000
  cpu := ⟨fun _ => 0, 0, fun _ => none⟩
  objcState := ()

def adjacentEnv₀ : Environment Nat Unit :=
  match doInitialLinking adjacentLoaded.objc adjacentLoaded.bins adjacentLoaded.allocated
      ⟨Dyld.new, adjacentLoaded.mem, adjacentLoaded.cpu, ()⟩ with
  | .ok (env, _) => env
  | .error _ => ⟨Dyld.new, adjacentLoaded.mem, adjacentLoaded.cpu, ()⟩

def adjacentEnv₁ : Environment Nat Unit :=
  { adjacentEnv₀ with cpu := (adjacentEnv₀.cpu.fetch adjacentEnv₀.mem 0x100c).2 }

def adjacentEnv₂ : Environment Nat Unit :=
  match getSvcHandler adjacentLoaded.lists adjacentLoaded.bins 0x1000 svcLazyLink adjacentEnv₁ with
  | .ok (_, env) => env
  | .error _ => adjacentEnv₁

/-- Without the proviso on lazy-pointer cells the cache goes stale. Of two 12-byte stubs at
`0x1000` and `0x100c` bound to `_foo`, the data cell of the first holds the address of the second:
once the CPU has executed the second stub's first word, the lazy link of the first stub writes
that word, outside the range it invalidates. -/
theorem stub_cache_stale_adjacent :
    adjacentLoaded.cpu.cache = (fun _ => none) ∧ Reachable adjacentLoaded adjacentEnv₂ ∧
      StubWord adjacentLoaded.bins 0x100c ∧ adjacentEnv₂.cpu.cache 0x100c = some 0xef000000#32 ∧
      adjacentEnv₂.mem.read 0x100c ≠ 0xef000000#32 := by
  have ht : (⟨0x1000, 12, some "_foo"⟩ : Stub) ∈ allStubs adjacentLoaded.bins := by decide
  have hc : encodeA32Svc svcLazyLink = .ok (adjacentEnv₁.mem.read 0x1000) := rfl
  refine ⟨rfl, .step (.step (@Reachable.init _ _ _ _ [] rfl) (.exec 0x100c)) (.trap (f := none) ht hc (by decide) rfl),
    ⟨⟨0x100c, 12, some "_foo"⟩, by decide, 0, by decide, by decide⟩, by decide, by decide⟩

end TouchHLE.Dyld
