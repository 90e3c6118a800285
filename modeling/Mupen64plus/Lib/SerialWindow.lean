import Mathlib.Data.BitVec
import Mathlib.Data.List.Nodup
import Mathlib.Tactic.Common

/-!
# Numbered entries that are taken in order

Entries are numbered `0, 1, 2, …`, and their numbers are known only up to the width `w` of a
counter. They come in any order and any number of times, and are taken one by one in the order of
their numbers.

## Main definitions

- `Pending` — a list of entries that wait, each once, all within `size` of the next to be taken

## Main results

- `toNat_sub_ahead`, `toNat_sub_behind` — how far apart two numbers are, read from their counters
- `Pending.insert`, `Pending.take` — an entry comes, and the next entry is taken
-/

namespace SerialWindow

variable {w : ℕ}

/-- A number that is less than a turn of the counter ahead. -/
theorem toNat_sub_ahead {c n : ℕ} (hlow : c ≤ n) (hhigh : n < c + 2 ^ w) :
    (BitVec.ofNat w n - BitVec.ofNat w c).toNat = n - c := by
  have hsub : BitVec.ofNat w n - BitVec.ofNat w c = BitVec.ofNat w (n - c) := by
    rw [sub_eq_iff_eq_add, ← BitVec.ofNat_add, Nat.sub_add_cancel hlow]
  rw [hsub, BitVec.toNat_ofNat, Nat.mod_eq_of_lt (by omega)]

/-- A number that is less than a turn of the counter behind. -/
theorem toNat_sub_behind {c n : ℕ} (hlow : n < c) (hhigh : c < n + 2 ^ w) :
    (BitVec.ofNat w n - BitVec.ofNat w c).toNat = 2 ^ w - (c - n) := by
  have hsub : BitVec.ofNat w n - BitVec.ofNat w c = BitVec.ofNat w (2 ^ w - (c - n)) := by
    rw [sub_eq_iff_eq_add, ← BitVec.ofNat_add]
    have hsum : 2 ^ w - (c - n) + c = 2 ^ w + n := by omega
    rw [hsum]
    apply BitVec.eq_of_toNat_eq
    rw [BitVec.toNat_ofNat, BitVec.toNat_ofNat, Nat.add_mod_left]
  rw [hsub, BitVec.toNat_ofNat, Nat.mod_eq_of_lt (by omega)]

/-- The counters of two numbers of one turn tell them apart. -/
theorem ofNat_inj {c n m : ℕ} (hn : c ≤ n ∧ n < c + 2 ^ w) (hm : c ≤ m ∧ m < c + 2 ^ w)
    (h : BitVec.ofNat w n = BitVec.ofNat w m) : n = m := by
  have hsub := toNat_sub_ahead hn.1 hn.2
  rw [h, toNat_sub_ahead hm.1 hm.2] at hsub
  omega

variable {ε : Type*}

def Pending (entry : ℕ → ε) (size c : ℕ) (events : List ε) : Prop :=
  ∃ ns : List ℕ, ns.Nodup ∧ (∀ n ∈ ns, c ≤ n ∧ n < c + size) ∧ events = ns.map entry

namespace Pending

variable {entry : ℕ → ε} {size c : ℕ} {events : List ε}

theorem nil : Pending entry size c [] :=
  ⟨[], List.nodup_nil, fun _ h => absurd h List.not_mem_nil, rfl⟩

theorem mem (h : Pending entry size c events) {e : ε} (he : e ∈ events) :
    ∃ n, c ≤ n ∧ n < c + size ∧ e = entry n := by
  obtain ⟨ns, -, hns, rfl⟩ := h
  obtain ⟨n, hn, rfl⟩ := List.mem_map.mp he
  exact ⟨n, (hns n hn).1, (hns n hn).2, rfl⟩

variable {key : ε → BitVec w}

/-- An entry that is not there yet. -/
theorem insert (h : Pending entry size c events) (hkey : ∀ n, key (entry n) = BitVec.ofNat w n)
    {n : ℕ} (hlow : c ≤ n) (hhigh : n < c + size)
    (hnew : ∀ e ∈ events, key e ≠ BitVec.ofNat w n) :
    Pending entry size c (entry n :: events) := by
  obtain ⟨ns, hnodup, hns, rfl⟩ := h
  have hfresh : n ∉ ns := fun hmem => hnew _ (List.mem_map_of_mem hmem) (hkey n)
  refine ⟨n :: ns, List.nodup_cons.mpr ⟨hfresh, hnodup⟩, ?_, rfl⟩
  intro m hm
  rcases List.mem_cons.mp hm with rfl | hmem
  · exact ⟨hlow, hhigh⟩
  · exact hns m hmem

theorem keys_nodup (h : Pending entry size c events)
    (hkey : ∀ n, key (entry n) = BitVec.ofNat w n) (hsize : size ≤ 2 ^ w) :
    (events.map key).Nodup := by
  obtain ⟨ns, hnodup, hns, rfl⟩ := h
  rw [List.map_map]
  refine hnodup.map_on fun n hn m hm heq => ?_
  have hn' := hns n hn
  have hm' := hns m hm
  rw [Function.comp_apply, Function.comp_apply, hkey, hkey] at heq
  exact ofNat_inj ⟨hn'.1, by omega⟩ ⟨hm'.1, by omega⟩ heq

/-- The entry with the counter of the next number is the next entry, and there is no second. -/
theorem take (h : Pending entry size c events) (hkey : ∀ n, key (entry n) = BitVec.ofNat w n)
    (hsize : size ≤ 2 ^ w) {i : ℕ}
    (hi : events.findIdx? (fun e => key e == BitVec.ofNat w c) = some i) :
    events[i]? = some (entry c) ∧ Pending entry size (c + 1) (events.eraseIdx i) := by
  obtain ⟨ns, hnodup, hns, rfl⟩ := h
  obtain ⟨hlt, hfound, -⟩ := List.findIdx?_eq_some_iff_getElem.mp hi
  have hlt' : i < ns.length := by rwa [List.length_map] at hlt
  have hnext : ns[i] = c := by
    have hbounds := hns ns[i] (List.getElem_mem hlt')
    rw [List.getElem_map, hkey, beq_iff_eq] at hfound
    exact ofNat_inj ⟨hbounds.1, by omega⟩ ⟨le_rfl, by omega⟩ hfound
  refine ⟨?_, ns.eraseIdx i, hnodup.sublist (List.eraseIdx_sublist _ _), ?_, ?_⟩
  · rw [List.getElem?_eq_getElem hlt, List.getElem_map, hnext]
  · intro n hn
    obtain ⟨j, hne, hj⟩ := List.mem_eraseIdx_iff_getElem?.mp hn
    obtain ⟨hjlt, rfl⟩ := List.getElem?_eq_some_iff.mp hj
    have hbounds := hns ns[j] (List.getElem_mem hjlt)
    have hother : ns[j] ≠ c := by
      rw [← hnext]
      exact fun heq => hne ((hnodup.getElem_inj_iff).mp heq)
    omega
  · exact List.eraseIdx_map _ _ _

end Pending

end SerialWindow
