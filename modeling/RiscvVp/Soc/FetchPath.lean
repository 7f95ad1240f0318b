/-
# RiscvVp.Soc.FetchPath -- two ways to fetch

An `InstrMemoryProxy` takes the instruction at the address `pc` out of its DMI window; the memory
interface translates `pc` first, waits for the bus and goes to the window or the bus.  The proxy
is for a core whose fetches are not translated, and for programs in its window: there both fetch
the same word.  Elsewhere the proxy ends the simulation, on RV64 for a `satp` that is not bare and
on both for an address outside the window.
-/
import RiscvVp.Soc.DataPath

namespace RiscvVp

set_option autoImplicit false

open Lib Iss

variable {isa : Isa}

/-- Fetches are not translated; on RV64 the proxy asks for a bare `satp`. -/
def Iss.Untranslated {World : Type} (plat : Platform World) (s : Iss isa World) : Prop :=
  Satp.mode (s.csrs.reg .satp) = Satp.bare ∨ isa = .rv32 ∧ (plat.hasMmu = false ∨ s.prv = machineMode)

section Fetch

variable {World : Type} {plat : Platform World} {s : Iss isa World} (pc : BitVec 64)

/-- A fetch in machine mode is not translated. -/
theorem Iss.run_v2p_machine (machine : s.prv = machineMode) :
    (v2p plat pc .fetch).run s = (.ok pc, s) := by
  have mode : effectiveMode .fetch s = machineMode := by
    unfold effectiveMode
    rw [if_neg (fun both => both.1 rfl), machine]
  unfold v2p
  by_cases direct : isa = .rv32 ∧ plat.hasMmu = false
  · rw [if_pos direct]
    rfl
  · rw [if_neg direct]
    unfold translateVirtualToPhysicalAddr
    rw [run_readCsr_bind, Exec.run_read_bind]
    by_cases bare : Satp.mode (s.csrs.reg .satp) = Satp.bare
    · rw [if_pos bare]
      rfl
    · rw [if_neg bare, if_pos mode]
      rfl

theorem Iss.run_v2p_untranslated (untranslated : Untranslated plat s) :
    (v2p plat pc .fetch).run s = (.ok pc, s) := by
  rcases untranslated with bare | ⟨narrow, none | machine⟩
  · exact run_v2p_bare plat (.inr bare) pc .fetch
  · exact run_v2p_bare plat (.inl ⟨narrow, none⟩) pc .fetch
  · exact run_v2p_machine pc machine

variable {e : MemoryDMI}

/-- The proxy behind its check of `satp`. -/
theorem Iss.run_proxyLoadInstr (accepts : isa = .rv64 → Satp.mode (s.csrs.reg .satp) = Satp.bare) :
    (proxyLoadInstr plat e pc).run s = (onWorld (plat.dmiLoad e pc 4)).run s := by
  unfold proxyLoadInstr
  rw [run_readCsr_bind, run_assert_bind _ accepts]

theorem Iss.run_proxyLoadInstr_translated (wide : isa = .rv64)
    (active : Satp.mode (s.csrs.reg .satp) ≠ Satp.bare) :
    (proxyLoadInstr plat e pc).run s = (.error (.abort .proxyWithVirtualMemory), s) := by
  have refused : ¬ (isa = .rv64 → Satp.mode (s.csrs.reg .satp) = Satp.bare) := fun all => active (all wide)
  unfold proxyLoadInstr
  rw [run_readCsr_bind]
  unfold Iss.assert
  rw [if_neg refused]
  rfl

/-- Not all four bytes are in the window; the sum of the check is one of 64 bits. -/
def MemoryDMI.Misses (e : MemoryDMI) (pc : BitVec 64) : Prop :=
  e.contains pc = false ∨ pc.toNat + 4 < 2 ^ 64 ∧ e.stop.toNat < pc.toNat + 4

theorem Iss.run_dmiLoad_misses (misses : e.Misses pc) (w : World) :
    (plat.dmiLoad e pc 4).run w = (.error (.abort .dmiRange), w) := by
  have refused : ¬ (e.contains pc = true ∧ pc + BitVec.ofNat 64 4 ≤ e.stop) := by
    rintro ⟨inside, fits⟩
    rcases misses with outside | ⟨small, beyond⟩
    · rw [outside] at inside
      cases inside
    · rw [BitVec.le_def, BitVec.toNat_add, BitVec.toNat_ofNat] at fits
      omega
  unfold Platform.dmiLoad Platform.dmiCheck
  rw [if_neg refused]
  rfl

end Fetch

namespace Soc

open Iss

variable {Dev : Type} {soc : Soc Dev} {base : Platform (SocState Dev)} {windows : List MemoryDMI}
  {s : Iss isa (SocState Dev)} {e : MemoryDMI} {pc : BitVec 64}

/-- The four bytes at `p`, by the interface. -/
theorem run_fetch {p : BitVec 64} (wired : soc.Wired s.world windows) (covers : soc.Covers s.world e)
    (holds : e.Holds p 4) (free : OpenTo s.hartId s.world)
    (translates : (v2p (soc.platform base windows) pc .fetch).run s = (.ok p, s)) :
    (combinedLoadInstr (soc.platform base windows) pc).run s =
      (.ok ((soc.bytes s.world).read p 4), s) := by
  have positive : 0 < 4 := by decide
  unfold combinedLoadInstr
  rw [Exec.run_bind_ok translates]
  unfold rawLoadData
  rw [Exec.run_read_bind, run_onWorld (run_rawLoadData wired covers positive holds free)]
  rfl

/-- The four bytes at `pc`, by the proxy. -/
theorem run_proxy (covers : soc.Covers s.world e) (holds : e.Holds pc 4)
    (accepts : isa = .rv64 → Satp.mode (s.csrs.reg .satp) = Satp.bare) :
    (proxyLoadInstr (soc.platform base windows) e pc).run s =
      (.ok ((soc.bytes s.world).read pc 4), s) := by
  have loaded : ((soc.platform base windows).dmiLoad e pc 4).run s.world =
      (.ok ((soc.bytes s.world).read pc 4), s.world) := by
    unfold Platform.dmiLoad
    rw [Exec.run_bind_ok (run_dmiCheck (by decide) holds s.world)]
    show (Except.ok (soc.dmiRead e pc 4 s.world).1, (soc.dmiRead e pc 4 s.world).2) = _
    rw [dmiRead_eq covers holds]
  rw [run_proxyLoadInstr pc accepts, run_onWorld loaded]
  rfl

/-- Where fetches are not translated and the word is in the window, proxy and interface fetch the
same word and leave the core as it is; elsewhere the proxy ends the simulation with one of its
assertions. -/
theorem fetch_path (wired : soc.Wired s.world windows) (covers : soc.Covers s.world e)
    (free : OpenTo s.hartId s.world) :
    (Untranslated base s → e.Holds pc 4 →
      (proxyLoadInstr (soc.platform base windows) e pc).run s =
          (.ok ((soc.bytes s.world).read pc 4), s) ∧
        (combinedLoadInstr (soc.platform base windows) pc).run s =
          (.ok ((soc.bytes s.world).read pc 4), s)) ∧
      (isa = .rv64 → Satp.mode (s.csrs.reg .satp) ≠ Satp.bare →
        (proxyLoadInstr (soc.platform base windows) e pc).run s =
          (.error (.abort .proxyWithVirtualMemory), s)) ∧
      ((isa = .rv64 → Satp.mode (s.csrs.reg .satp) = Satp.bare) → e.Misses pc →
        (proxyLoadInstr (soc.platform base windows) e pc).run s = (.error (.abort .dmiRange), s)) := by
  refine ⟨fun untranslated holds => ⟨run_proxy covers holds fun wide => ?_, ?_⟩,
    run_proxyLoadInstr_translated pc, fun accepts misses => ?_⟩
  · rcases untranslated with bare | ⟨narrow, -⟩
    · exact bare
    · rw [narrow] at wide
      cases wide
  · have direct : Untranslated (soc.platform base windows) s := untranslated
    exact run_fetch wired covers holds free (run_v2p_untranslated pc direct)
  · rw [run_proxyLoadInstr pc accepts, run_onWorld (run_dmiLoad_misses pc misses s.world)]
    rfl

end Soc

namespace Hifive

open Iss Soc

/-- At the first word of the flash, at its last one, and behind it. -/
theorem fetch_path_hifive :
    (proxyLoadInstr (soc.platform devices [dramDmi, flashDmi]) flashDmi 0x20000000).run core =
        (combinedLoadInstr (soc.platform devices [dramDmi, flashDmi]) 0x20000000).run core ∧
      (proxyLoadInstr (soc.platform devices [dramDmi, flashDmi]) flashDmi 0x3FFFFFFC).run core =
        (combinedLoadInstr (soc.platform devices [dramDmi, flashDmi]) 0x3FFFFFFC).run core ∧
      (proxyLoadInstr (soc.platform devices [dramDmi, flashDmi]) flashDmi 0x3FFFFFFE).run core =
        (.error (.abort .dmiRange), core) := by
  have direct : Untranslated devices core := .inl rfl
  have first : flashDmi.Holds 0x20000000 4 := by unfold MemoryDMI.Holds; decide
  have last : flashDmi.Holds 0x3FFFFFFC 4 := by unfold MemoryDMI.Holds; decide
  have misses : flashDmi.Misses 0x3FFFFFFE := by unfold MemoryDMI.Misses; decide
  have there := (fetch_path ready.wired covers_flash ready.free).1 direct first
  have there' := (fetch_path ready.wired covers_flash ready.free).1 direct last
  exact ⟨there.1.trans there.2.symm, there'.1.trans there'.2.symm,
    (fetch_path ready.wired covers_flash ready.free).2.2 (fun _ => rfl) misses⟩

/-- A RV64 core in machine mode, with the mode `Sv39` in its `satp`. -/
def paged : Iss .rv64 (SocState Unit) :=
  (reset 0 false 0x20000000 0x80004000 memories).setCsr .satp 0x8000000000000000

/-- Fetches of machine mode are not translated, and the interface returns the word; the proxy does
not go so far. -/
theorem fetch_path_differs :
    (proxyLoadInstr (soc.platform devices [dramDmi, flashDmi]) flashDmi 0x20000000).run paged =
        (.error (.abort .proxyWithVirtualMemory), paged) ∧
      (combinedLoadInstr (soc.platform devices [dramDmi, flashDmi]) 0x20000000).run paged =
        (.ok 0, paged) := by
  have held : flashDmi.Holds 0x20000000 4 := by unfold MemoryDMI.Holds; decide
  refine ⟨run_proxyLoadInstr_translated _ rfl (by decide), ?_⟩
  rw [run_fetch (s := paged) ready.wired covers_flash held nofun (run_v2p_machine _ rfl)]
  refine congrArg (fun word => (Except.ok word, paged)) ?_
  decide

end Hifive

end RiscvVp
