import Mupen64plus.Device.Memory
import Mupen64plus.Lib.Assignments

/-!
# Vector loads and stores of the RSP

`LWC2` and `SWC2` of the interpreter. DMEM and the vector registers are bytes in the order of a
little-endian host: the byte of DMEM at a guest address is found with its two low bits flipped,
a byte of a register with its lowest bit flipped, and a half-word moves as two bytes in order. A
register has room for a second copy of itself, which an illegal element reaches.

An instruction that reports a case it does not handle gives the report, and leaves the state.

## Main definitions

- `RspVectors` — the scalar registers, DMEM and the vector registers
- `ldvBytes`, `sdvBytes`, `packedBytes`, … — the assignments of an instruction, by the alignment
- `VectorMove.run` — an instruction
-/

namespace Mupen64plus

open Assignments

/-- `BES`, `HES`, `MES` and `WES`. -/
def bes (address : ℕ) : ℕ := address ^^^ 3

def hes (address : ℕ) : ℕ := address ^^^ 2

def mes (address : ℕ) : ℕ := address ^^^ 1

def wes (address : ℕ) : ℕ := address ^^^ 0

/-- What vector loads and stores work on. `vr` has 32 bytes a register, the upper 16 of them beyond
    the architecture. -/
structure RspVectors where
  sr : Fin 32 → BitVec 32
  dmem : Bytes
  vr : Fin 32 → Bytes

/-- Bytes moved, in order: where to, and where from. -/
abbrev Moves := List (ℕ × ℕ)

/-- A half-word, as the host moves it. -/
def half (dst src : ℕ) : Moves := [(dst + 1, src + 1), (dst, src)]

def one (dst src : ℕ) : Moves := [(dst, src)]

/-- The same bytes moved the other way. -/
def exchange (l : Moves) : Moves := l.map Prod.swap

/-- The bytes of a lane. -/
def laneBytes (i : ℕ) (x : BitVec 16) : List (ℕ × BitVec 8) :=
  [(2 * i + 1, x.extractLsb' 8 8), (2 * i, x.extractLsb' 0 8)]

namespace RspVectors

/-- `(SR[base] + scale*offset) & 0x00000FFF`, the offset extended from 7 bits. -/
def address (s : RspVectors) (scale : BitVec 32) (offset : BitVec 7) (base : Fin 32) : ℕ :=
  ((s.sr base + scale * offset.signExtend 32) &&& 0xfff#32).toNat

/-- Bytes moved from DMEM to a register. -/
def moveIn (s : RspVectors) (vt : Fin 32) (l : Moves) : RspVectors :=
  { s with vr := Function.update s.vr vt (assign (s.vr vt) (l.map fun p => (p.1, s.dmem p.2))) }

/-- Bytes moved from a register to DMEM. -/
def moveOut (s : RspVectors) (vt : Fin 32) (l : Moves) : RspVectors :=
  { s with dmem := assign s.dmem (l.map fun p => (p.1, s.vr vt p.2)) }

/-- `VR[vt][i]`. -/
def lane (s : RspVectors) (vt : Fin 32) (i : ℕ) : BitVec 16 :=
  s.vr vt (2 * i + 1) ++ s.vr vt (2 * i)

/-- `VR[vt][i] = DMEM[a] << shift`, for each pair of a lane and an address. -/
def lanesIn (s : RspVectors) (vt : Fin 32) (shift : ℕ) (l : Moves) : RspVectors :=
  let bytes := l.flatMap fun p => laneBytes p.1 ((s.dmem p.2).setWidth 16 <<< shift)
  { s with vr := Function.update s.vr vt (assign (s.vr vt) bytes) }

/-- `DMEM[a] = (u8)(VR[vt][i] >> shift)`, for each pair of an address and a lane. -/
def lanesOut (s : RspVectors) (vt : Fin 32) (shift : ℕ) (l : Moves) : RspVectors :=
  { s with dmem := assign s.dmem (l.map fun p =>
      (p.1, ((s.lane vt p.2).sshiftRight shift).setWidth 8)) }

/-- `vector_copy(VR[vt] + N, VR[vt])`. -/
def wrapAround (s : RspVectors) (vt : Fin 32) : RspVectors :=
  let copy := (List.range 16).map fun j => (16 + j, s.vr vt j)
  { s with vr := Function.update s.vr vt (assign (s.vr vt) copy) }

end RspVectors

open RspVectors

/-- An instruction: its register, element, offset and base, and the report or the state after. -/
abbrev MoveC2 :=
  RspVectors → Fin 32 → Fin 16 → BitVec 7 → Fin 32 → Except String RspVectors

-- ════════════════════════════════════════════════════════════════════════
-- Scalars
-- ════════════════════════════════════════════════════════════════════════

def lbv : MoveC2 := fun s vt e offset base =>
  let addr := s.address 1 offset base
  .ok (s.moveIn vt (one (mes e.val) (bes addr)))

/-- The index of a half-word whose address is corrected by its place in the word. -/
def corrected (addr : ℕ) (correction : ℤ) : ℕ := (addr - correction).toNat

def lsv : MoveC2 := fun s vt e offset base =>
  if e.val % 2 = 1 then .error "LSV\nIllegal element."
  else
    let addr := s.address 2 offset base
    if addr % 4 = 3 then .error "LSV\nWeird addr."
    else
      let correction : ℤ := ((addr % 4 : ℕ) - 1) * hes 0
      .ok (s.moveIn vt (half e.val (corrected addr correction)))

/-- The bytes of `LLV` and, exchanged, of `SLV`, at an even address. -/
def wordBytes (e addr : ℕ) : Moves :=
  let correction : ℤ := hes 0 * ((addr % 4 : ℕ) - 1)
  half e (corrected addr correction) ++ half (e + 2) (corrected ((addr + 2) % 4096) (-correction))

def llv : MoveC2 := fun s vt e offset base =>
  if e.val % 2 = 1 then .error "LLV\nOdd element."
  else
    let addr := s.address 4 offset base
    if addr % 2 = 1 then
      let addr₁ := (addr + 1) % 4096
      let addr₂ := (addr₁ + 1) % 4096
      let addr₃ := (addr₂ + 1) % 4096
      .ok (s.moveIn vt (one (e.val + mes 0) (bes addr) ++ one (e.val + 1 - mes 0) (bes addr₁) ++
        one (e.val + 2 + mes 0) (bes addr₂) ++ one (e.val + 3 - mes 0) (bes addr₃)))
    else .ok (s.moveIn vt (wordBytes e.val addr))

/-- The assignments of `LDV`. -/
def ldvBytes (e addr : ℕ) : Moves :=
  match addr % 8 with
  | 0 =>
    half e (addr + hes 0) ++ half (e + 2) (addr + hes 2) ++ half (e + 4) (addr + hes 4) ++
      half (e + 6) (addr + hes 6)
  | 1 =>
    let next := (addr + 7 + bes 0) % 4096
    half e addr ++ one (e + 2 + mes 0) (addr + 2 - bes 0) ++
      one (e + 3 - mes 0) (addr + 3 + bes 0) ++ half (e + 4) (addr + 4) ++
      one (e + 6 + mes 0) (addr + 6 - bes 0) ++ one (e + 7 - mes 0) next
  | 2 =>
    let next := (addr + 6 + hes 0) % 4096
    half e (addr - hes 0) ++ half (e + 2) (addr + 2 + hes 0) ++
      half (e + 4) (addr + 4 - hes 0) ++ half (e + 6) next
  | 3 =>
    let next := (addr + 5 + bes 0) % 4096
    one (e + mes 0) (addr - bes 0) ++ one (e + 1 - mes 0) (addr + 1 + bes 0) ++
      half (e + 2) (addr + 2) ++ one (e + 4 + mes 0) (addr + 4 - bes 0) ++
      one (e + 5 - mes 0) next ++ half (e + 6) (next + 1 - bes 0)
  | 4 =>
    let next := (addr + 4 + wes 0) % 4096
    half e (addr + hes 0) ++ half (e + 2) (addr + hes 2) ++ half (e + 4) (next + hes 0) ++
      half (e + 6) (next + hes 2)
  | 5 =>
    let next := (addr + 3) % 4096
    half e addr ++ one (e + 2 + mes 0) (addr + 2 - bes 0) ++
      one (e + 3 - mes 0) (next + bes 0) ++ half (e + 4) (next + 1) ++
      one (e + 6 + mes 0) (next + bes 3) ++ one (e + 7 - mes 0) (next + bes 4)
  | 6 =>
    let next := (addr + 2) % 4096
    half e (addr - hes 0) ++ half (e + 2) (next + hes 0) ++ half (e + 4) (next + hes 2) ++
      half (e + 6) (next + hes 4)
  | 7 =>
    let next := (addr + 1) % 4096
    one (e + mes 0) (addr - bes 0) ++ one (e + 1 - mes 0) (next + bes 0) ++
      half (e + 2) (next + 1) ++ one (e + 4 + mes 0) (next + bes 3) ++
      one (e + 5 - mes 0) (next + bes 4) ++ half (e + 6) (next + 5)
  | _ => []

def ldv : MoveC2 := fun s vt e offset base =>
  if e.val % 2 = 1 then .error "LDV\nOdd element."
  else .ok (s.moveIn vt (ldvBytes e.val (s.address 8 offset base)))

def sbv : MoveC2 := fun s vt e offset base =>
  let addr := s.address 1 offset base
  .ok (s.moveOut vt (one (bes addr) (mes e.val)))

def ssv : MoveC2 := fun s vt e offset base =>
  let addr := s.address 2 offset base
  .ok (s.moveOut vt (one (bes addr) (mes (e.val + 0)) ++
    one (bes ((addr + 1) % 4096)) (mes ((e.val + 1) % 16))))

def slv : MoveC2 := fun s vt e offset base =>
  if e.val % 2 = 1 ∨ 12 < e.val then .error "SLV\nIllegal element."
  else
    let addr := s.address 4 offset base
    if addr % 2 = 1 then .error "SLV\nOdd addr."
    else .ok (s.moveOut vt (exchange (wordBytes e.val addr)))

/-- The assignments of `SDV` to an even element that leaves room for them. At an address that is 3
    modulo 8 the last half-word is read at element 6, whatever the element. -/
def sdvBytes (e addr : ℕ) : Moves :=
  match addr % 8 with
  | 0 =>
    half (addr + hes 0) e ++ half (addr + hes 2) (e + 2) ++ half (addr + hes 4) (e + 4) ++
      half (addr + hes 6) (e + 6)
  | 1 =>
    let next := (addr + 7 + bes 0) % 4096
    half addr e ++ one (addr + 2 - bes 0) (e + 2 + mes 0) ++
      one (addr + 3 + bes 0) (e + 3 - mes 0) ++ half (addr + 4) (e + 4) ++
      one (addr + 6 - bes 0) (e + 6 + mes 0) ++ one next (e + 7 - mes 0)
  | 2 =>
    let next := (addr + 6 + hes 0) % 4096
    half (addr - hes 0) e ++ half (addr + 2 + hes 0) (e + 2) ++
      half (addr + 4 - hes 0) (e + 4) ++ half next (e + 6)
  | 3 =>
    let next := (addr + 5 + bes 0) % 4096
    one (addr - bes 0) (e + mes 0) ++ one (addr + 1 + bes 0) (e + 1 - mes 0) ++
      half (addr + 2) (e + 2) ++ one (addr + 4 - bes 0) (e + 4 + mes 0) ++
      one next (e + 5 - mes 0) ++ half (next + 1 - bes 0) 6
  | 4 =>
    let next := (addr + 4) % 4096
    half (addr + hes 0) e ++ half (addr + hes 2) (e + 2) ++ half (next + hes 0) (e + 4) ++
      half (next + hes 2) (e + 6)
  | 5 =>
    let next := (addr + 3) % 4096
    half addr e ++ one (addr + 2 - bes 0) (e + 2 + mes 0) ++
      one (next + bes 0) (e + 3 - mes 0) ++ half (next + 1) (e + 4) ++
      one (next + bes 3) (e + 6 + mes 0) ++ one (next + bes 4) (e + 7 - mes 0)
  | 6 =>
    let next := (addr + 2) % 4096
    half (addr - hes 0) e ++ half (next + hes 0) (e + 2) ++ half (next + hes 2) (e + 4) ++
      half (next + hes 4) (e + 6)
  | 7 =>
    let next := (addr + 1) % 4096
    one (addr - bes 0) (e + mes 0) ++ one (next + bes 0) (e + 1 - mes 0) ++
      half (next + 1) (e + 2) ++ one (next + bes 3) (e + 4 + mes 0) ++
      one (next + bes 4) (e + 5 - mes 0) ++ half (next + 5) (e + 6)
  | _ => []

/-- The byte loop of `SDV` and `SQV` for an illegal element. -/
def wrappedBytes (n e addr : ℕ) : Moves :=
  (List.range n).map fun i => (bes ((addr + i) % 4096), mes (e + i))

def sdv : MoveC2 := fun s vt e offset base =>
  let addr := s.address 8 offset base
  if 8 < e.val ∨ e.val % 2 = 1 then
    .ok ((s.wrapAround vt).moveOut vt (wrappedBytes 8 e.val addr))
  else .ok (s.moveOut vt (sdvBytes e.val addr))

-- ════════════════════════════════════════════════════════════════════════
-- Packed vectors
-- ════════════════════════════════════════════════════════════════════════

/-- The lanes of `LPV`, `LUV` and, exchanged, of `SPV` and `SUV`, and the bytes they go with, by the
    place in the double-word and the address of that. -/
def packedBytes (b addr : ℕ) : Moves :=
  match b with
  | 0 =>
    [(7, addr + bes 7), (6, addr + bes 6), (5, addr + bes 5), (4, addr + bes 4),
     (3, addr + bes 3), (2, addr + bes 2), (1, addr + bes 1), (0, addr + bes 0)]
  | 1 =>
    let next := (addr + bes 8) % 4096
    [(0, addr + bes 1), (1, addr + bes 2), (2, addr + bes 3), (3, addr + bes 4),
     (4, addr + bes 5), (5, addr + bes 6), (6, addr + bes 7), (7, next)]
  | 2 =>
    let next := (addr + 8) % 4096
    [(0, addr + bes 2), (1, addr + bes 3), (2, addr + bes 4), (3, addr + bes 5),
     (4, addr + bes 6), (5, addr + bes 7), (6, next + bes 0), (7, next + bes 1)]
  | 3 =>
    let next := (addr + 8) % 4096
    [(0, addr + bes 3), (1, addr + bes 4), (2, addr + bes 5), (3, addr + bes 6),
     (4, addr + bes 7), (5, next + bes 0), (6, next + bes 1), (7, next + bes 2)]
  | 4 =>
    let next := (addr + 8) % 4096
    [(0, addr + bes 4), (1, addr + bes 5), (2, addr + bes 6), (3, addr + bes 7),
     (4, next + bes 0), (5, next + bes 1), (6, next + bes 2), (7, next + bes 3)]
  | 5 =>
    let next := (addr + 8) % 4096
    [(0, addr + bes 5), (1, addr + bes 6), (2, addr + bes 7), (3, next + bes 0),
     (4, next + bes 1), (5, next + bes 2), (6, next + bes 3), (7, next + bes 4)]
  | 6 =>
    let next := (addr + 8) % 4096
    [(0, addr + bes 6), (1, addr + bes 7), (2, next + bes 0), (3, next + bes 1),
     (4, next + bes 2), (5, next + bes 3), (6, next + bes 4), (7, next + bes 5)]
  | 7 =>
    let next := (addr + 8) % 4096
    [(0, addr + bes 7), (1, next + bes 0), (2, next + bes 1), (3, next + bes 2),
     (4, next + bes 3), (5, next + bes 4), (6, next + bes 5), (7, next + bes 6)]
  | _ => []

def lpv : MoveC2 := fun s vt e offset base =>
  if e.val ≠ 0 then .error "LPV\nIllegal element."
  else
    let addr := s.address 8 offset base
    .ok (s.lanesIn vt 8 (packedBytes (addr % 8) (addr - addr % 8)))

/-- The loop of `LUV` for an element other than 0, from the pass `b` on. -/
def luvLoop (e : ℕ) (addr : BitVec 32) : ℕ → ℕ → Moves
  | _, 0 => []
  | b, passes + 1 =>
    let addr := addr &&& 0xfff#32
    let next := if b + 1 = e then addr - 16 + 1 else addr + 1
    (b, bes addr.toNat) :: luvLoop e next (b + 1) passes

def luv : MoveC2 := fun s vt e offset base =>
  let addr := s.address 8 offset base
  if e.val ≠ 0 then
    let addr := BitVec.ofNat 32 addr + ((~~~BitVec.ofNat 32 e.val + 1) &&& 0xf#32)
    .ok (s.lanesIn vt 7 (luvLoop e.val addr 0 8))
  else .ok (s.lanesIn vt 7 (packedBytes (addr % 8) (addr - addr % 8)))

def spv : MoveC2 := fun s vt e offset base =>
  if e.val ≠ 0 then .error "SPV\nIllegal element."
  else
    let addr := s.address 8 offset base
    .ok (s.lanesOut vt 8 (exchange (packedBytes (addr % 8) (addr - addr % 8))))

def suv : MoveC2 := fun s vt e offset base =>
  if e.val ≠ 0 then .error "SUV\nIllegal element."
  else
    let addr := s.address 8 offset base
    if addr % 8 = 0 ∨ addr % 8 = 4 then
      .ok (s.lanesOut vt 7 (exchange (packedBytes (addr % 8) (addr - addr % 8))))
    else .error "SUV\nWeird addr."

/-- The lanes of `LHV` and, exchanged, of `SHV`. -/
def everyOtherByte (addr : ℕ) : Moves :=
  [(7, addr + hes 0xe), (6, addr + hes 0xc), (5, addr + hes 0xa), (4, addr + hes 0x8),
   (3, addr + hes 0x6), (2, addr + hes 0x4), (1, addr + hes 0x2), (0, addr + hes 0x0)]

def lhv : MoveC2 := fun s vt e offset base =>
  if e.val ≠ 0 then .error "LHV\nIllegal element."
  else
    let addr := s.address 16 offset base
    if addr / 2 % 8 ≠ 0 then .error "LHV\nIllegal addr."
    else .ok (s.lanesIn vt 7 (everyOtherByte (addr ^^^ mes 0)))

def shv : MoveC2 := fun s vt e offset base =>
  if e.val ≠ 0 then .error "SHV\nIllegal element."
  else
    let addr := s.address 16 offset base
    if addr / 2 % 8 ≠ 0 then .error "SHV\nIllegal addr."
    else .ok (s.lanesOut vt 7 (exchange (everyOtherByte (addr ^^^ mes 0))))

def sfv : MoveC2 := fun s vt e offset base =>
  let addr := s.address 16 offset base
  let addr := addr - 4 * (addr / 4 % 4)
  let addr := addr ^^^ bes 0
  if e.val = 0 then
    .ok (s.lanesOut vt 7 [(addr + 0x0, 0), (addr + 0x4, 1), (addr + 0x8, 2), (addr + 0xc, 3)])
  else if e.val = 8 then
    .ok (s.lanesOut vt 7 [(addr + 0x0, 4), (addr + 0x4, 5), (addr + 0x8, 6), (addr + 0xc, 7)])
  else .error "SFV\nIllegal element."

-- ════════════════════════════════════════════════════════════════════════
-- Quads and rests
-- ════════════════════════════════════════════════════════════════════════

/-- The assignments of `LQV` and, exchanged, of `SQV` to element 0, by the place in the quad-word
    and the address of that. -/
def quadBytes (e b addr : ℕ) : Moves :=
  match b / 2 with
  | 0 =>
    half e (addr + hes 0) ++ half (e + 2) (addr + hes 2) ++ half (e + 4) (addr + hes 4) ++
      half (e + 6) (addr + hes 6) ++ half (e + 8) (addr + hes 8) ++
      half (e + 10) (addr + hes 10) ++ half (e + 12) (addr + hes 12) ++
      half (e + 14) (addr + hes 14)
  | 1 =>
    half e (addr + hes 2) ++ half (e + 2) (addr + hes 4) ++ half (e + 4) (addr + hes 6) ++
      half (e + 6) (addr + hes 8) ++ half (e + 8) (addr + hes 10) ++
      half (e + 10) (addr + hes 12) ++ half (e + 12) (addr + hes 14)
  | 2 =>
    half e (addr + hes 4) ++ half (e + 2) (addr + hes 6) ++ half (e + 4) (addr + hes 8) ++
      half (e + 6) (addr + hes 10) ++ half (e + 8) (addr + hes 12) ++
      half (e + 10) (addr + hes 14)
  | 3 =>
    half e (addr + hes 6) ++ half (e + 2) (addr + hes 8) ++ half (e + 4) (addr + hes 10) ++
      half (e + 6) (addr + hes 12) ++ half (e + 8) (addr + hes 14)
  | 4 =>
    half e (addr + hes 8) ++ half (e + 2) (addr + hes 10) ++ half (e + 4) (addr + hes 12) ++
      half (e + 6) (addr + hes 14)
  | 5 =>
    half e (addr + hes 10) ++ half (e + 2) (addr + hes 12) ++ half (e + 4) (addr + hes 14)
  | 6 => half e (addr + hes 12) ++ half (e + 2) (addr + hes 14)
  | 7 => half e (addr + hes 14)
  | _ => []

def lqv : MoveC2 := fun s vt e offset base =>
  if e.val % 2 = 1 then .error "LQV\nOdd element."
  else
    let addr := s.address 16 offset base
    if addr % 2 = 1 then .error "LQV\nOdd addr."
    else .ok (s.moveIn vt (quadBytes e.val (addr % 16) (addr - addr % 16)))

/-- The assignments of `LRV` and, exchanged, of `SRV`. -/
def restBytes (b addr : ℕ) : Moves :=
  match b / 2 with
  | 7 =>
    half (2 * 1) (addr + hes 0) ++ half (2 * 2) (addr + hes 2) ++ half (2 * 3) (addr + hes 4) ++
      half (2 * 4) (addr + hes 6) ++ half (2 * 5) (addr + hes 8) ++
      half (2 * 6) (addr + hes 10) ++ half (2 * 7) (addr + hes 12)
  | 6 =>
    half (2 * 2) (addr + hes 0) ++ half (2 * 3) (addr + hes 2) ++ half (2 * 4) (addr + hes 4) ++
      half (2 * 5) (addr + hes 6) ++ half (2 * 6) (addr + hes 8) ++ half (2 * 7) (addr + hes 10)
  | 5 =>
    half (2 * 3) (addr + hes 0) ++ half (2 * 4) (addr + hes 2) ++ half (2 * 5) (addr + hes 4) ++
      half (2 * 6) (addr + hes 6) ++ half (2 * 7) (addr + hes 8)
  | 4 =>
    half (2 * 4) (addr + hes 0) ++ half (2 * 5) (addr + hes 2) ++ half (2 * 6) (addr + hes 4) ++
      half (2 * 7) (addr + hes 6)
  | 3 =>
    half (2 * 5) (addr + hes 0) ++ half (2 * 6) (addr + hes 2) ++ half (2 * 7) (addr + hes 4)
  | 2 => half (2 * 6) (addr + hes 0) ++ half (2 * 7) (addr + hes 2)
  | 1 => half (2 * 7) (addr + hes 0)
  | 0 => []
  | _ => []

def lrv : MoveC2 := fun s vt e offset base =>
  if e.val ≠ 0 then .error "LRV\nIllegal element."
  else
    let addr := s.address 16 offset base
    if addr % 2 = 1 then .error "LRV\nOdd addr."
    else .ok (s.moveIn vt (restBytes (addr % 16) (addr - addr % 16)))

def sqv : MoveC2 := fun s vt e offset base =>
  let addr := s.address 16 offset base
  if e.val ≠ 0 then
    .ok ((s.wrapAround vt).moveOut vt (wrappedBytes (16 - addr % 16) e.val addr))
  else if addr % 16 = 0 ∨ addr % 16 = 2 ∨ addr % 16 = 4 ∨ addr % 16 = 6 then
    .ok (s.moveOut vt (exchange (quadBytes 0 (addr % 16) (addr - addr % 16))))
  else .error "SQV\nWeird addr."

def srv : MoveC2 := fun s vt e offset base =>
  if e.val ≠ 0 then .error "SRV\nIllegal element."
  else
    let addr := s.address 16 offset base
    if addr % 2 = 1 then .error "SRV\nOdd addr."
    else .ok (s.moveOut vt (exchange (restBytes (addr % 16) (addr - addr % 16))))

-- ════════════════════════════════════════════════════════════════════════
-- Transposed vectors
-- ════════════════════════════════════════════════════════════════════════

/-- The register at a place in the block of eight that `vt` starts. -/
def blockReg (vt : Fin 32) (i : ℕ) : Fin 32 := Fin.ofNat 32 (vt.val + i)

def ltv : MoveC2 := fun s vt e offset base =>
  if e.val % 2 = 1 then .error "LTV\nIllegal element."
  else if vt.val % 8 ≠ 0 then .error "LTV\nUncertain case!"
  else
    let addr := s.address 16 offset base
    if addr % 16 ≠ 0 then .error "LTV\nIllegal addr."
    else
      .ok ((List.range 8).foldl (fun s i =>
        s.moveIn (blockReg vt i) (half (2 * ((i + 8 - e.val / 2) % 8)) (addr + hes (2 * i)))) s)

def stv : MoveC2 := fun s vt e offset base =>
  if e.val % 2 = 1 then .error "STV\nIllegal element."
  else if vt.val % 8 ≠ 0 then .error "STV\nUncertain case!"
  else
    let addr := s.address 16 offset base
    if addr % 16 ≠ 0 then .error "STV\nIllegal addr."
    else
      .ok ((List.range 8).foldl (fun s i =>
        s.moveOut (blockReg vt ((e.val / 2 + i) % 8)) (half (addr + hes (2 * i)) (2 * i))) s)

-- ════════════════════════════════════════════════════════════════════════
-- Every instruction
-- ════════════════════════════════════════════════════════════════════════

inductive VectorMove where
  | lbv | lsv | llv | ldv | lpv | luv | lhv | lqv | lrv | ltv
  | sbv | ssv | slv | sdv | spv | suv | shv | sfv | sqv | srv | stv
  deriving DecidableEq, Repr

/-- The entry of `LWC2` or `SWC2`. -/
def VectorMove.run (op : VectorMove) : MoveC2 :=
  match op with
  | .lbv => Mupen64plus.lbv
  | .lsv => Mupen64plus.lsv
  | .llv => Mupen64plus.llv
  | .ldv => Mupen64plus.ldv
  | .lpv => Mupen64plus.lpv
  | .luv => Mupen64plus.luv
  | .lhv => Mupen64plus.lhv
  | .lqv => Mupen64plus.lqv
  | .lrv => Mupen64plus.lrv
  | .ltv => Mupen64plus.ltv
  | .sbv => Mupen64plus.sbv
  | .ssv => Mupen64plus.ssv
  | .slv => Mupen64plus.slv
  | .sdv => Mupen64plus.sdv
  | .spv => Mupen64plus.spv
  | .suv => Mupen64plus.suv
  | .shv => Mupen64plus.shv
  | .sfv => Mupen64plus.sfv
  | .sqv => Mupen64plus.sqv
  | .srv => Mupen64plus.srv
  | .stv => Mupen64plus.stv

end Mupen64plus
