import ChipEight.Proofs.Addresses
import ChipEight.Proofs.Requests

/-!
Registers put into memory and brought back. A store puts the registers up to a last one into the
cells from I on, no two of them into the same cell (`Stored`). As long as nothing writes these cells
or I, a load finds them again (`Stored.restored`); and a store right behind a load puts back what
has stood there (`memory_loaded_stored`).
-/

namespace ChipEight

/-! ### Writes in a row, read back -/

namespace Memory

/-- A memory is what can be read in it. -/
theorem ext_read {m m' : Memory} (h : ∀ a, m'.read a = m.read a) : m' = m := by
  have hread (n : Memory) (k : Nat) (hk : k < 4096) : n.read k = n.cells[k] := by
    have hcell : cell k = ⟨k, hk⟩ := Fin.ext (by simp only [cell]; omega)
    simp only [read, hcell]
    rfl
  have hcells : m'.cells = m.cells := Vector.ext fun k hk => by
    rw [← hread m' k hk, ← hread m k hk, h]
  obtain ⟨cells⟩ := m
  exact congrArg mk hcells

/-- Values written into cells in a row can be read there, wherever the row starts. -/
theorem read_foldl_write_row {n : Nat} (hn : n ≤ 4096) (m : Memory) (start : Int)
    (value : Fin n → Int) {l : List (Fin n)} (hl : l.Nodup) {k : Fin n} (hk : k ∈ l) :
    (l.foldl (fun m k => m.write (start + k) (value k)) m).read (start + k) =
      Byte.wrap (value k) := by
  induction l generalizing m with
  | nil => cases hk
  | cons j l ih =>
    obtain ⟨hfirst, hrest⟩ := List.nodup_cons.mp hl
    rw [List.foldl_cons]
    rcases List.mem_cons.mp hk with rfl | hk
    · have hlater : ∀ i ∈ l, (start + i) % 4096 ≠ (start + k) % 4096 := by
        intro i hi
        have hval : i.val ≠ k.val := fun h => hfirst (Fin.ext h ▸ hi)
        omega
      rw [read_foldl_write_of_ne _ (fun i : Fin n => start + i) _ hlater, read_write, if_pos rfl]
    · exact ih _ hrest hk

end Memory

namespace Registers

theorem read_foldl_write_of_mem (r : Registers) (value : Fin 16 → Int) {l : List (Fin 16)}
    {x : Fin 16} (h : x ∈ l) :
    (l.foldl (fun r k => r.write k (value k)) r).read x = value x % 256 := by
  induction l generalizing r with
  | nil => cases h
  | cons k l ih =>
    rw [List.foldl_cons]
    by_cases hlater : x ∈ l
    · exact ih _ hlater
    · obtain rfl : x = k := (List.mem_cons.mp h).resolve_right hlater
      rw [read_foldl_write_of_not_mem _ _ hlater, read_write, if_pos rfl]

end Registers

namespace Machine

variable {m n : Machine} {x k : Fin 16} {r : Request}

theorem nodup_registersTo (x : Fin 16) : (registersTo x).Nodup :=
  (List.nodup_finRange 16).sublist (List.take_sublist _ _)

/-- The registers go into different cells, whatever I is. -/
theorem read_storeRegisters (m : Machine) (hk : k ≤ x) :
    (m.storeRegisters x).memory.read (m.index + k) = Byte.wrap (m.v k) :=
  m.memory.read_foldl_write_row (by decide) m.index m.v (nodup_registersTo x)
    (mem_registersTo.mpr hk)

theorem v_loadRegisters (m : Machine) (hk : k ≤ x) :
    (m.loadRegisters x).v k = (m.memory.read (m.index + k)).toInt := by
  have hread := m.registers.read_foldl_write_of_mem
    (fun k : Fin 16 => (m.memory.read (m.index + k.val)).toInt) (mem_registersTo.mpr hk)
  obtain ⟨hlow, hhigh⟩ := (m.memory.read (m.index + k)).isByte_toInt
  exact hread.trans (Int.emod_eq_of_lt hlow (by omega))

theorem v_loadRegisters_of_lt (m : Machine) (hk : x < k) : (m.loadRegisters x).v k = m.v k :=
  Registers.read_foldl_write_of_not_mem _ _ (mt mem_registersTo.mp (Fin.not_le.mpr hk))

/-! ### A store and a load -/

/-- The registers up to a last one stand in a row from I on, and nothing else has changed in the
memory, in I or in a register. -/
structure Stored (n : Machine) (x : Fin 16) (m' : Machine) : Prop where
  inside : ∀ k : Fin 16, k ≤ x → (m'.memory.read (n.index + k)).toInt = n.v k
  outside : ∀ a, ¬ Memory.Within n.index (x + 1) a → m'.memory.read a = n.memory.read a
  index : m'.index = n.index
  registers : ∀ k, m'.v k = n.v k

theorem respond_storeRegs (h : m.GetsTo .storeRegs x r) :
    ∃ b, m.respond r = { (m.found r).storeRegisters x with buzzer := b } :=
  h.respond fun i _ _ hop hx => by simp only [execute, hop, hx]

theorem respond_loadRegs (h : m.GetsTo .loadRegs x r) :
    ∃ b, m.respond r = { (m.found r).loadRegisters x with buzzer := b } :=
  h.respond fun i _ _ hop hx => by simp only [execute, hop, hx]

theorem memory_respond_loadRegs (h : m.GetsTo .loadRegs x r) :
    (m.respond r).memory = m.memory := by
  obtain ⟨b, hrespond⟩ := respond_loadRegs h
  rw [hrespond]
  exact m.found_memory r

theorem index_respond_loadRegs (h : m.GetsTo .loadRegs x r) : (m.respond r).index = m.index := by
  obtain ⟨b, hrespond⟩ := respond_loadRegs h
  rw [hrespond]
  exact m.found_index r

theorem InBounds.stored (hm : m.InBounds) (h : m.GetsTo .storeRegs x r) :
    (m.found r).Stored x (m.respond r) := by
  obtain ⟨b, hrespond⟩ := respond_storeRegs h
  obtain ⟨i, hi, hop, rfl⟩ := h
  have hstores : i.stores = i.x + 1 := by simp only [Instruction.stores, hop]
  refine ⟨fun k hk => ?_, fun a ha => ?_, ?_, fun k => ?_⟩
  · rw [hrespond]
    change (((m.found r).storeRegisters i.x).memory.read ((m.found r).index + k)).toInt = _
    rw [read_storeRegisters _ hk, Byte.toInt_wrap_of_isByte ((hm.found r).registers k)]
  · rw [found_memory]
    rw [found_index, ← hstores] at ha
    exact (respond_keeps hi).1 a ha
  · rw [hrespond]
    rfl
  · rw [hrespond]
    rfl

/-- A load fills the registers up to a last one from the cells from I on, and leaves the others. -/
theorem v_respond_loadRegs (h : m.GetsTo .loadRegs x r) (k : Fin 16) :
    (m.respond r).v k =
      if k ≤ x then (m.memory.read (m.index + k)).toInt else (m.found r).v k := by
  obtain ⟨b, hrespond⟩ := respond_loadRegs h
  rw [hrespond]
  change ((m.found r).loadRegisters x).v k = _
  by_cases hk : k ≤ x
  · rw [if_pos hk, v_loadRegisters _ hk, found_memory, found_index]
  · rw [if_neg hk, v_loadRegisters_of_lt _ (Fin.not_le.mp hk)]

/-- Registers that have been stored come back as long as their cells and I are passed by. -/
theorem Stored.restored {m' : Machine} (h : n.Stored x m') {between : List Request}
    (hpass : m'.PassBy n.index (x + 1) between) (hr : (m'.serve between).GetsTo .loadRegs x r)
    (k : Fin 16) :
    ((m'.serve between).respond r).v k =
      if k ≤ x then n.v k else ((m'.serve between).found r).v k := by
  obtain ⟨hindex, hread⟩ := hpass.serve
  rw [v_respond_loadRegs hr]
  by_cases hk : k ≤ x
  · have hwithin : Memory.Within n.index (x + 1) (n.index + k) :=
      ⟨k, Nat.lt_succ_of_le hk, rfl⟩
    rw [if_pos hk, if_pos hk, hindex, h.index, hread _ hwithin, h.inside k hk]
  · rw [if_neg hk, if_neg hk]

/-- A store right behind a load of the same registers changes no cell. -/
theorem memory_loaded_stored (hm : m.InBounds) (h : m.GetsTo .loadRegs x r) {later : Request}
    (hlater : (m.respond r).GetsTo .storeRegs x later) (hdirect : (m.respond r).Directly later) :
    ((m.respond r).respond later).memory = m.memory := by
  have hstored := (hm.respond r).stored hlater
  have hindex := index_respond_loadRegs h
  refine Memory.ext_read fun a => ?_
  by_cases ha : Memory.Within m.index (x + 1) a
  · obtain ⟨k, hk, hplace⟩ := ha
    have hle : (⟨k, by omega⟩ : Fin 16) ≤ x := Nat.le_of_lt_succ hk
    -- What the store puts into this cell is what the load has found in it.
    have hinside := hstored.inside _ hle
    rw [found_index, hindex, hdirect.v_found, v_respond_loadRegs h, if_pos hle] at hinside
    rw [← Memory.read_congr _ hplace, ← Memory.read_congr _ hplace]
    exact UInt8.toNat_inj.mp (Int.ofNat_inj.mp hinside)
  · rw [hstored.outside a (by rwa [found_index, hindex]), found_memory, memory_respond_loadRegs h]

/-- Registers that are stored can be had back, in every machine inside its bounds and wherever I
stands. The store copies them, each into a cell of its own, and changes nothing else; while these
cells and I are passed by, whatever else is asked for, a load makes the registers what they were at
the store and leaves the ones above alone. The other way round, a store right behind a load changes
no cell; behind a cycle that loads every request comes directly. -/
theorem store_load_registers (hm : m.InBounds) (x : Fin 16) :
    (∀ store, m.GetsTo .storeRegs x store →
      (m.found store).Stored x (m.respond store) ∧
      ∀ between, (m.respond store).PassBy m.index (x + 1) between →
        let n := (m.respond store).serve between
        ∀ load, n.GetsTo .loadRegs x load → ∀ k,
          (n.respond load).v k = if k ≤ x then (m.found store).v k else (n.found load).v k) ∧
    ∀ load, m.GetsTo .loadRegs x load →
      (∀ tracing env, load = .cycle tracing env → ∀ r, (m.respond load).Directly r) ∧
      ∀ store, (m.respond load).GetsTo .storeRegs x store → (m.respond load).Directly store →
        ((m.respond load).respond store).memory = m.memory := by
  refine ⟨fun store hstore => ?_, fun load hload => ⟨?_, fun store hstore hdirect => ?_⟩⟩
  · have hstored := hm.stored hstore
    refine ⟨hstored, fun between hpass => ?_⟩
    rw [← m.found_index store] at hpass
    exact fun load hload k => hstored.restored hpass hload k
  · rintro tracing env rfl
    obtain ⟨i, hi, hop, -⟩ := hload
    exact directly_cycle hi (hop ▸ Operation.noConfusion)
  · exact memory_loaded_stored hm hload hstore hdirect

/-- A cycle in which no time has passed and no key is held. -/
def still : Request := .cycle false (holding [])

/-- A machine about to store all its registers across the end of the memory. Then it will clear two
of them and load them all again. -/
def saving : Machine :=
  (start 0).serve [.load .boundless (.bytes [0xAF, 0xFD, 0x60, 0x0B, 0x6F, 0x07, 0xFF, 0x55, 0x60,
    0x00, 0x6F, 0x00, 0xFF, 0x65]), still, still, still]

/-- V0 comes back from in front of the end, VF from behind the start; and the cells there stay as
they are if they are loaded and stored. -/
theorem store_load_registers_saving :
    (((saving.respond still).serve [still, still]).respond still).v 0 = 0x0B ∧
      (((saving.respond still).serve [still, still]).respond still).v 15 = 0x07 ∧
      ((saving.respond (.execute 0xFF65 false (holding []))).respond
        (.execute 0xFF55 false (holding []))).memory = saving.memory := by
  have hsaving : saving.InBounds := Reachable.inBounds ⟨0, _, rfl⟩
  obtain ⟨hstores, hloads⟩ := store_load_registers hsaving 15
  have hstore : saving.GetsTo .storeRegs 15 still :=
    ⟨⟨.storeRegs, 0xFF55⟩, by decide +kernel, rfl, rfl⟩
  have hpass : (saving.respond still).PassBy saving.index 16 [still, still] :=
    ⟨passesBy_of_stores (i := ⟨.loadByte, 0x6000⟩) (by decide +kernel) rfl (by decide) _ _,
      passesBy_of_stores (i := ⟨.loadByte, 0x6F00⟩) (by decide +kernel) rfl (by decide) _ _,
      trivial⟩
  have hload : ((saving.respond still).serve [still, still]).GetsTo .loadRegs 15 still :=
    ⟨⟨.loadRegs, 0xFF65⟩, by decide +kernel, rfl, rfl⟩
  have hback := (hstores still hstore).2 [still, still] hpass still hload
  have hload' : saving.GetsTo .loadRegs 15 (.execute 0xFF65 false (holding [])) :=
    ⟨⟨.loadRegs, 0xFF65⟩, by decide +kernel, rfl, rfl⟩
  have hstore' (m : Machine) : m.GetsTo .storeRegs 15 (.execute 0xFF55 false (holding [])) :=
    ⟨⟨.storeRegs, 0xFF55⟩, by change decode 0xFF55 = _; decide +kernel, rfl, rfl⟩
  refine ⟨(hback 0).trans ?_, (hback 15).trans ?_, ?_⟩
  · decide +kernel
  · decide +kernel
  · exact (hloads _ hload').2 _ (hstore' _) trivial

end Machine

end ChipEight
