import Mupen64plus.R4300.Core

/-!
# Invalidation of compiled code

`invalidate_cached_code_hacktarux` and its caller `invalidate_r4300_cached_code`.

## Main definitions

- `invalidateLoop` — the walk over the words of a range, which leaves a page as soon as it is
  invalid
- `invalidateR4300CachedCode` — invalidation, a no-op in the pure interpreter

The walk is on 32-bit addresses and never ends when the range ends inside the last page of the
address space; `invalidateLoop` takes fuel and answers `none` then.
-/

namespace Mupen64plus

/-- The slot of a block that holds the instruction at an address. -/
def slotOf (addr : BitVec 32) : ℕ := ((addr &&& 0xfff) >>> 2).toNat

/-- Whether the walk marks the page of `addr` invalid: it has no block, or the instruction at
    `addr` was compiled. -/
def CachedInterp.mustInvalidate (ci : CachedInterp) (addr : BitVec 32) : Bool :=
  match ci.blocks (pageOf addr) with
  | none => true
  | some b => b.slots (slotOf addr) != .notCompiled

/-- The last word of the page of an address. -/
def lastWordOf (addr : BitVec 32) : BitVec 32 := (addr &&& ~~~0xfff) ||| 0xffc

/-- The loop of `invalidate_cached_code_hacktarux`. -/
def invalidateLoop (addrMax : BitVec 32) : ℕ → BitVec 32 → CachedInterp → Option CachedInterp
  | 0, _, _ => none
  | fuel + 1, addr, ci =>
    if addr < addrMax then
      if ci.invalidCode (pageOf addr) then
        invalidateLoop addrMax fuel (lastWordOf addr + 4) ci
      else if ci.mustInvalidate addr then
        invalidateLoop addrMax fuel (lastWordOf addr + 4) (ci.setInvalid (pageOf addr) true)
      else invalidateLoop addrMax fuel (addr + 4) ci
    else some ci

/-- The number of words of the address space. -/
def invalidateFuel : ℕ := 0x40000001

/-- `invalidate_cached_code_hacktarux`; a size of 0 invalidates every page. -/
def invalidateCachedCodeHacktarux (ci : CachedInterp) (address size : BitVec 32) :
    Option CachedInterp :=
  if size = 0 then some { ci with invalidCode := fun _ => true }
  else invalidateLoop (address + size) invalidateFuel address ci

/-- `invalidate_r4300_cached_code`. Where the source does not return, the cache stays as it is. -/
def invalidateR4300CachedCode (r : R4300) (address size : BitVec 32) : R4300 :=
  match r.emumode with
  | .pureInterpreter => r
  | .interpreter =>
    { r with cachedInterp :=
        (invalidateCachedCodeHacktarux r.cachedInterp address size).getD r.cachedInterp }

@[simp] theorem invalidateR4300CachedCode_cp0 (r : R4300) (address size : BitVec 32) :
    (invalidateR4300CachedCode r address size).cp0 = r.cp0 := by
  unfold invalidateR4300CachedCode
  split <;> rfl

/-- Invalidation touches the cache only. -/
theorem invalidateR4300CachedCode_eq (r : R4300) (address size : BitVec 32) :
    ∃ ci, invalidateR4300CachedCode r address size = { r with cachedInterp := ci } := by
  unfold invalidateR4300CachedCode
  split
  · exact ⟨r.cachedInterp, rfl⟩
  · exact ⟨_, rfl⟩

end Mupen64plus
