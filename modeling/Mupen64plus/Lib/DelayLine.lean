import Mathlib.Data.Int.ModEq

/-!
# Delay lines in a circular buffer

A circular buffer takes a stream block by block, and a tap reads it a fixed number of positions
back.

## Main definitions

- `tapIndex` — the index that a tap reads
- `Records` — blocks of a stream are written to a buffer in turn

## Main results

- `Records.recent` — what the buffer holds
- `Records.tap` — a tap returns the stream, delayed
-/

namespace Mupen64plus

/-- `(pos - d + i) mod L`. -/
def tapIndex (L pos d i : ℕ) : ℕ := (((pos : ℤ) - d + i) % L).toNat

/-- The cells of a buffer of `N` blocks of size `B` before each block, of which block `n` of the
stream is written to block `n % N` and to no other cell. -/
structure Records {α : Type*} (cells : ℕ → ℕ → α) (stream : ℕ → α) (B N : ℕ) : Prop where
  written : ∀ n, ∀ k < B, cells (n + 1) (B * (n % N) + k) = stream (B * n + k)
  kept : ∀ n, ∀ j < B * N, j < B * (n % N) ∨ B * (n % N) + B ≤ j → cells (n + 1) j = cells n j

section

variable {L pos d i : ℕ}

/-- A tap that does not turn round. -/
theorem tapIndex_of_le (h : d ≤ pos) (hi : pos - d + i < L) : tapIndex L pos d i = pos - d + i := by
  unfold tapIndex
  rw [show (pos : ℤ) - d + i = ((pos - d + i : ℕ) : ℤ) by omega, ← Int.natCast_mod,
    Int.toNat_natCast, Nat.mod_eq_of_lt hi]

/-- A tap that turns round the start of the buffer. -/
theorem tapIndex_of_lt (hd : d ≤ L) :
    tapIndex L pos d i = (pos + L - d + i) % L := by
  unfold tapIndex
  rw [← Int.add_emod_right, show (pos : ℤ) - d + i + L = ((pos + L - d + i : ℕ) : ℤ) by omega,
    ← Int.natCast_mod, Int.toNat_natCast]

/-- The index of a position of the stream. -/
theorem tapIndex_stream {p q : ℕ} (h : q + d = p + i) : tapIndex L (p % L) d i = q % L := by
  unfold tapIndex
  have hdivision := Nat.mod_add_div p L
  have hdiff : ((p % L : ℕ) : ℤ) - d + i = q - (L * (p / L) : ℕ) := by omega
  rw [hdiff, Nat.cast_mul, Int.sub_mul_emod_self_left, ← Int.natCast_mod, Int.toNat_natCast]

end

namespace Records

variable {α : Type*} {cells : ℕ → ℕ → α} {stream : ℕ → α} {B N : ℕ}

theorem block_pos (B N n : ℕ) : B * (n % N) = B * n % (B * N) := (Nat.mul_mod_mul_left B n N).symm

/-- The index of sample `k` of block `n`. -/
theorem index_block (hN : 0 < N) {n k : ℕ} (hk : k < B) :
    (B * n + k) % (B * N) = B * (n % N) + k := by
  have hblock : B * (n % N) + B ≤ B * N := by
    rw [← Nat.mul_succ]
    exact Nat.mul_le_mul_left B (Nat.mod_lt n hN)
  rw [Nat.add_mod, ← block_pos, Nat.mod_eq_of_lt (a := k) (by omega), Nat.mod_eq_of_lt (by omega)]

/-- Two positions of the stream less than a turn apart have different indices. -/
theorem index_ne {L p q : ℕ} (hlt : p < q) (hturn : q < p + L) : p % L ≠ q % L := by
  intro h
  have hdvd := (Nat.modEq_iff_dvd' hlt.le).mp h
  have hle := Nat.le_of_dvd (by omega) hdvd
  omega

/-- The buffer holds the stream of the last turn. -/
theorem recent (h : Records cells stream B N) (hN : 0 < N) {n p : ℕ} (hp : p < B * n)
    (hturn : B * n ≤ p + B * N) : cells n (p % (B * N)) = stream p := by
  induction n with
  | zero => exact absurd hp (by simp)
  | succ n ih =>
    rw [Nat.mul_succ] at hp hturn
    rcases Nat.lt_or_ge p (B * n) with hold | hnew
    · -- an older block is not touched, as its indices are less than a turn away
      have hlt : p % (B * N) < B * N := Nat.mod_lt p (by omega)
      rw [← ih hold (by omega)]
      refine h.kept n _ hlt ?_
      by_contra hin
      have hoffset := index_block (B := B) hN (n := n) (k := p % (B * N) - B * (n % N)) (by omega)
      refine index_ne (L := B * N) (p := p) (q := B * n + (p % (B * N) - B * (n % N))) ?_ ?_ ?_
      all_goals omega
    · obtain ⟨k, rfl⟩ := Nat.exists_eq_add_of_le hnew
      rw [index_block hN (by omega), h.written n k (by omega)]

/-- A tap at sample `i` of block `n` returns the sample of the stream `d` positions earlier, where
that is in an earlier block, and one turn earlier where it is in the block itself. -/
theorem tap (h : Records cells stream B N) (hN : 0 < N) {n d i q : ℕ} (hi : i < B)
    (hd : d ≤ B * N) (hq : i < d ∧ q + d = B * n + i ∨ d ≤ i ∧ q + B * N + d = B * n + i) :
    cells n (tapIndex (B * N) (B * (n % N)) d i) = stream q := by
  have hB : B ≤ B * N := Nat.le_mul_of_pos_right B hN
  rcases hq with ⟨hearlier, hq⟩ | ⟨hitself, hq⟩
  · rw [block_pos, tapIndex_stream hq]
    exact h.recent hN (by omega) (by omega)
  · rw [block_pos, tapIndex_stream (q := q + B * N) (by omega), Nat.add_mod_right]
    exact h.recent hN (by omega) (by omega)

end Records

end Mupen64plus
