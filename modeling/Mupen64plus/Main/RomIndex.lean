import Mupen64plus.Lib.PointerChain
import Mupen64plus.Main.RomDatabase

/-!
# The index of the ROM database

The entries of the database are found through chains of pointers that stand in the entries: one
for each first byte of an MD5, to whose head an entry is put at its section, and one for each first
byte of a CRC, to whose head it is put at every valid `CRC` line. The chains are cleared when a
database is opened, the last one of each kind excepted.

## Main definitions

- `RomIndex` — the database with its chains
- `readLine`, `romdatabaseOpen`, `romdatabaseClose`, `searchByMd5`, `searchByCrc` — the code
- `IndexSound` — the chains hold live entries of their byte, and the searches are right
- `CrcOnce`, `InheritsClean` — one CRC line in a section, and no inherited CRC that matters
- `AdmissibleRun` — the runs whose databases meet them

## Main results

- `Built.readLine` — what a line keeps
- `searchByMd5_eq` — the chains find what the list of entries has
- `indexSound_of_admissible`
-/

namespace Mupen64plus

-- ════════════════════
-- Lines
-- ════════════════════

/-- A line of the file, as its parsers leave it: `none` is a value that they refuse. -/
inductive DbLine
  | iniSection (md5 : Option Md5)
  | crc (pair : Option (BitVec 32 × BitVec 32))
  | refmd5 (md5 : Option Md5)
  | property (a : RomAttribute) (h : a ≠ .crc) (v : a.Value)
  | cheat (v : String)
  | ignored

namespace Entry

/-- `crc1` and `crc2`. -/
def crc (e : Entry) : BitVec 32 × BitVec 32 := e.value .crc

/-- An invalid `CRC` line, which clears the numbers but not the flag. -/
def clearCrc (e : Entry) : Entry where
  md5 := e.md5
  refmd5 := e.refmd5
  value := Function.update e.value .crc (RomAttribute.default .crc)
  isSet := e.isSet
  unset_default := by
    intro a ha
    rcases eq_or_ne a .crc with rfl | hne
    · exact Function.update_self _ _ _
    · rw [Function.update_of_ne hne]
      exact e.unset_default a ha

/-- A `Cheat` line, which is appended to those before. -/
def addCheat (e : Entry) (v : String) : Entry :=
  let cheats : Option String := e.value .cheats
  e.set .cheats (if v = "" then cheats else match cheats with
    | none | some "" => some v
    | some c => some (c ++ ";" ++ v))

/-- What a property does to the entry of its section. -/
def read (e : Entry) : DbLine → Entry
  | .crc (some pair) => e.set .crc pair
  | .crc none => e.clearCrc
  | .refmd5 (some m) => e.setRef m
  | .property a _ v => e.set a v
  | .cheat v => e.addCheat v
  | .refmd5 none | .iniSection _ | .ignored => e

end Entry

/-- The list that a CRC is indexed in. -/
def crcByte (pair : BitVec 32 × BitVec 32) : BitVec 8 := (pair.1 >>> 24).setWidth 8

-- ════════════════════
-- The code
-- ════════════════════

/-- `g_romdatabase`, with the entries at their addresses. -/
structure RomIndex where
  haveDatabase : Bool
  list : List ℕ
  entry : ℕ → Entry
  nextCrc : ℕ → Option ℕ
  nextMd5 : ℕ → Option ℕ
  crcLists : BitVec 8 → Option ℕ
  md5Lists : BitVec 8 → Option ℕ

/-- `malloc`, which may give out the addresses of freed entries. -/
structure Allocator where
  malloc : List ℕ → ℕ
  fresh : ∀ live, malloc live ∉ live

/-- A valid section. -/
def addSection (alloc : Allocator) (s : RomIndex) (md5 : Md5) : RomIndex :=
  let search := alloc.malloc s.list
  { s with
    list := s.list ++ [search]
    entry := Function.update s.entry search (Entry.new md5)
    nextCrc := Function.update s.nextCrc search none
    nextMd5 := Function.update s.nextMd5 search (s.md5Lists (md5 0))
    md5Lists := Function.update s.md5Lists (md5 0) (some search) }

/-- A property of the section of `search`. -/
def addProperty (s : RomIndex) (search : ℕ) (line : DbLine) : RomIndex :=
  let s := { s with entry := Function.update s.entry search ((s.entry search).read line) }
  match line with
  | .crc (some pair) =>
    { s with
      nextCrc := Function.update s.nextCrc search (s.crcLists (crcByte pair))
      crcLists := Function.update s.crcLists (crcByte pair) (some search) }
  | _ => s

/-- One turn of the loop of `romdatabase_open`, with the pointer `search`. -/
def readLine (alloc : Allocator) (p : RomIndex × Option ℕ) (line : DbLine) : RomIndex × Option ℕ :=
  match line, p.2 with
  | .iniSection (some md5), _ => (addSection alloc p.1 md5, some (alloc.malloc p.1.list))
  | .iniSection none, _ => (p.1, none)
  | _, none => (p.1, none)
  | line, some search => (addProperty p.1 search line, some search)

/-- The entries of the list. -/
def RomIndex.entries (s : RomIndex) : List Entry := s.list.map s.entry

/-- The database of a list of entries. -/
def databaseOf (l : List Entry) : RomDatabase l.length := l.get

/-- `romdatabase_resolve`, on the entries of the list. -/
def resolveIndex (s : RomIndex) : RomIndex :=
  match romdatabaseResolve (s.entries.length + 2) none (databaseOf s.entries) with
  | none => s
  | some db => { s with
      entry := fun a =>
        if h : a ∈ s.list then db ⟨s.list.idxOf a, by
          rw [RomIndex.entries, List.length_map]
          exact List.idxOf_lt_length_of_mem h⟩
        else s.entry a }

/-- The loops that clear the lists. -/
def clearLists (lists : BitVec 8 → Option ℕ) : BitVec 8 → Option ℕ := fun b =>
  if b.toNat < 255 then none else lists b

/-- `romdatabase_open`, where the file is found. -/
def romdatabaseOpen (alloc : Allocator) (lines : List DbLine) (s : RomIndex) : RomIndex :=
  if s.haveDatabase then s
  else
    let s := { s with
      haveDatabase := true
      crcLists := clearLists s.crcLists
      md5Lists := clearLists s.md5Lists
      list := [] }
    resolveIndex (lines.foldl (readLine alloc) (s, none)).1

/-- `romdatabase_close`, which frees the entries. -/
def romdatabaseClose (s : RomIndex) : RomIndex :=
  if s.haveDatabase then { s with list := [], haveDatabase := false } else s

/-- `ini_search_by_md5`, in `fuel` turns. -/
def searchByMd5 (s : RomIndex) (md5 : Md5) (fuel : ℕ) : Option (Option ℕ) :=
  if s.haveDatabase then
    findOnChain s.nextMd5 (fun a => (s.entry a).md5 = md5) fuel (s.md5Lists (md5 0))
  else some none

/-- The loop of `ini_search_by_crc`. -/
def crcLoop (s : RomIndex) (pair : BitVec 32 × BitVec 32) :
    ℕ → (foundEntry search : Option ℕ) → Option (Option ℕ)
  | _, foundEntry, none => some foundEntry
  | 0, _, some _ => none
  | fuel + 1, foundEntry, some a =>
    if (s.entry a).crc = pair then
      if foundEntry.isSome then some none else crcLoop s pair fuel (some a) (s.nextCrc a)
    else crcLoop s pair fuel foundEntry (s.nextCrc a)

/-- `ini_search_by_crc`, in `fuel` turns. -/
def searchByCrc (s : RomIndex) (pair : BitVec 32 × BitVec 32) (fuel : ℕ) : Option (Option ℕ) :=
  if s.haveDatabase then crcLoop s pair fuel none (s.crcLists (crcByte pair)) else some none

-- ════════════════════
-- Soundness
-- ════════════════════

/-- A chain ends, passes no entry twice, and holds live entries of a key byte. -/
def ChainSound (s : RomIndex) (next : ℕ → Option ℕ) (head : Option ℕ) (key : Entry → BitVec 8)
    (b : BitVec 8) : Prop :=
  ∃ l, IsChain next head l ∧ l.Nodup ∧ ∀ a ∈ l, a ∈ s.list ∧ key (s.entry a) = b

/-- A live entry with a CRC. -/
def HasCrc (s : RomIndex) (pair : BitVec 32 × BitVec 32) (a : ℕ) : Prop :=
  a ∈ s.list ∧ (s.entry a).isSet .crc ∧ (s.entry a).crc = pair

/-- The chains of an open database are sound, the searches end, and the search for a CRC finds the
entry that alone has it. -/
structure IndexSound (s : RomIndex) : Prop where
  crcLists : ∀ b, ChainSound s s.nextCrc (s.crcLists b) (fun e => crcByte e.crc) b
  md5Lists : ∀ b, ChainSound s s.nextMd5 (s.md5Lists b) (fun e => e.md5 0) b
  searchByMd5 : ∀ md5, ∃ fuel r, searchByMd5 s md5 fuel = some r
  searchByCrc : ∀ pair, ∃ fuel r, searchByCrc s pair fuel = some r ∧
    ∀ a, r = some a ↔ HasCrc s pair a ∧ ∀ a', HasCrc s pair a' → a' = a

-- ════════════════════
-- Conditions on the file
-- ════════════════════

/-- The entries of a file, the last one first, and whether a property is for the last one. -/
def readEntry (p : List Entry × Bool) (line : DbLine) : List Entry × Bool :=
  match line, p with
  | .iniSection (some md5), (l, _) => (Entry.new md5 :: l, true)
  | .iniSection none, (l, _) => (l, false)
  | line, (e :: l, true) => (e.read line :: l, true)
  | _, p => p

/-- The entries of a file before their references are resolved. -/
def fileEntries (lines : List DbLine) : List Entry := (lines.foldl readEntry ([], false)).1.reverse

/-- No section has a second valid `CRC` line, nor an invalid one after a valid one whose first byte
is not 0. The first argument is the byte of the CRC of the section, if there is one. -/
def CrcOnce : Option (Option (BitVec 8)) → List DbLine → Prop
  | _, [] => True
  | _, .iniSection (some _) :: rest => CrcOnce (some none) rest
  | _, .iniSection none :: rest => CrcOnce none rest
  | some none, .crc (some pair) :: rest => CrcOnce (some (some (crcByte pair))) rest
  | some (some _), .crc (some _) :: _ => False
  | some (some b), .crc none :: rest => b = 0 ∧ CrcOnce (some (some b)) rest
  | linked, _ :: rest => CrcOnce linked rest

/-- A CRC that an entry inherits is one that two entries set themselves. -/
def InheritsClean {n : ℕ} (db : RomDatabase n) : Prop :=
  ∀ i l, (db i).isSet .crc = false → RefChain db i l → (∃ j ∈ l, (db j).isSet .crc) →
    ∃ j k, j ≠ k ∧ ((db j).isSet .crc ∧ (db j).crc = chainValue db l .crc) ∧
      (db k).isSet .crc ∧ (db k).crc = chainValue db l .crc

/-- The calls. -/
inductive RomOp
  | openFile (lines : List DbLine)
  | openFailed
  | close

def romStep (alloc : Allocator) (s : RomIndex) : RomOp → RomIndex
  | .openFile lines => romdatabaseOpen alloc lines s
  | .openFailed => s
  | .close => romdatabaseClose s

def romRun (alloc : Allocator) (s : RomIndex) (ops : List RomOp) : RomIndex :=
  ops.foldl (romStep alloc) s

/-- Nothing has been opened yet. -/
def RomIndex.initial : RomIndex :=
  ⟨false, [], fun _ => Entry.new fun _ => 0, fun _ => none, fun _ => none, fun _ => none,
    fun _ => none⟩

/-- What is opened has at most one CRC in a section and no inherited CRC that matters, and no
database before it has left an entry in the lists of the byte 0xff. -/
def Admissible (s : RomIndex) : RomOp → Prop
  | .openFile lines => s.haveDatabase = false → s.crcLists 0xff = none ∧ s.md5Lists 0xff = none ∧
      CrcOnce none lines ∧ InheritsClean (databaseOf (fileEntries lines))
  | _ => True

def AdmissibleRun (alloc : Allocator) : RomIndex → List RomOp → Prop
  | _, [] => True
  | s, op :: rest => Admissible s op ∧ AdmissibleRun alloc (romStep alloc s op) rest

-- ════════════════════
-- Reading
-- ════════════════════

/-- A live entry that is in the chain of a CRC byte. -/
def Indexed (s : RomIndex) (b : BitVec 8) (a : ℕ) : Prop :=
  a ∈ s.list ∧ (s.entry a).isSet .crc ∧ crcByte (s.entry a).crc = b

/-- What holds between two lines: `p` is the file read so far, and `linked` the byte by which the
current entry is in a CRC chain. -/
structure Built (s : RomIndex) (search : Option ℕ) (linked : Option (Option (BitVec 8)))
    (p : List Entry × Bool) : Prop where
  haveDatabase : s.haveDatabase = true
  entries : s.entries.reverse = p.1
  nodup : s.list.Nodup
  current : search.isSome = p.2
  linked_isSome : linked.isSome = p.2
  last : ∀ a, search = some a → ∃ before, s.list = before ++ [a]
  md5 : ∀ b, IsChain s.nextMd5 (s.md5Lists b)
    ((s.list.filter fun a => (s.entry a).md5 0 = b).reverse)
  crc : ∀ b, ∃ l, IsChain s.nextCrc (s.crcLists b) l ∧ ∀ a, a ∈ l ↔ Indexed s b a
  unlinked : ∀ a, search = some a → linked = some none → (s.entry a).isSet .crc = false
  linked_byte : ∀ a b, search = some a → linked = some (some b) → Indexed s b a

namespace Built

variable {alloc : Allocator} {s : RomIndex} {search : Option ℕ}
  {linked : Option (Option (BitVec 8))} {p : List Entry × Bool} {rest : List DbLine}

theorem mem_of_search (h : Built s search linked p) {a : ℕ} (ha : search = some a) :
    a ∈ s.list := by
  obtain ⟨before, hlist⟩ := h.last a ha
  rw [hlist]
  exact List.mem_append_right before List.mem_cons_self

/-- A section. -/
theorem addSection (h : Built s search linked p) (md5 : Md5) :
    Built (addSection alloc s md5) (some (alloc.malloc s.list)) (some none)
      (Entry.new md5 :: p.1, true) := by
  have hfresh := alloc.fresh s.list
  have hne : ∀ x ∈ s.list, x ≠ alloc.malloc s.list := fun x hx => ne_of_mem_of_not_mem hx hfresh
  have hold : ∀ x ∈ s.list,
      Function.update s.entry (alloc.malloc s.list) (Entry.new md5) x = s.entry x :=
    fun x hx => Function.update_of_ne (hne x hx) _ _
  constructor
  · exact h.haveDatabase
  · change ((s.list ++ [alloc.malloc s.list]).map (Function.update s.entry _ _)).reverse = _
    rw [List.map_append, List.map_congr_left hold, List.reverse_append, List.map_singleton,
      Function.update_self, ← h.entries]
    rfl
  · refine List.nodup_append.mpr ⟨h.nodup, List.nodup_singleton _, ?_⟩
    intro x hx y hy
    rw [List.mem_singleton.mp hy]
    exact hne x hx
  · rfl
  · rfl
  · rintro _ ⟨rfl⟩
    exact ⟨s.list, rfl⟩
  · intro b
    change IsChain (Function.update s.nextMd5 _ (s.md5Lists (md5 0)))
      (Function.update s.md5Lists (md5 0) (some (alloc.malloc s.list)) b)
      (((s.list ++ [alloc.malloc s.list]).filter fun a =>
        (Function.update s.entry (alloc.malloc s.list) (Entry.new md5) a).md5 0 = b).reverse)
    have hfilter : (s.list.filter fun a =>
        (Function.update s.entry (alloc.malloc s.list) (Entry.new md5) a).md5 0 = b) =
          s.list.filter fun a => (s.entry a).md5 0 = b :=
      List.filter_congr fun x hx => by rw [hold x hx]
    have hnotin : ∀ c, alloc.malloc s.list ∉
        ((s.list.filter fun a => (s.entry a).md5 0 = c).reverse) := fun c hmem =>
      hfresh (List.mem_of_mem_filter (List.mem_reverse.mp hmem))
    rw [List.filter_append, hfilter, List.reverse_append]
    rcases eq_or_ne b (md5 0) with rfl | hb
    · rw [Function.update_self, List.filter_singleton, Function.update_self]
      simp only [Entry.new, decide_true]
      exact (h.md5 _).push (hnotin _)
    · rw [Function.update_of_ne hb, List.filter_singleton, Function.update_self]
      simp only [Entry.new, hb.symm]
      exact (h.md5 _).update (hnotin _)
  · intro b
    obtain ⟨l, hl, hmem⟩ := h.crc b
    refine ⟨l, hl.update fun ha => hfresh ((hmem _).mp ha).1, fun x => ?_⟩
    rw [hmem]
    change (x ∈ s.list ∧ (s.entry x).isSet .crc ∧ crcByte (s.entry x).crc = b) ↔
      x ∈ s.list ++ [alloc.malloc s.list] ∧
        (Function.update s.entry (alloc.malloc s.list) (Entry.new md5) x).isSet .crc ∧
        crcByte (Function.update s.entry (alloc.malloc s.list) (Entry.new md5) x).crc = b
    rw [List.mem_append, List.mem_singleton]
    constructor
    · rintro ⟨hx, hset, hbyte⟩
      rw [hold x hx]
      exact ⟨.inl hx, hset, hbyte⟩
    · rintro ⟨hx | rfl, hset, hbyte⟩
      · rw [hold x hx] at hset hbyte
        exact ⟨hx, hset, hbyte⟩
      · rw [Function.update_self] at hset
        exact nomatch hset
  · rintro _ ⟨rfl⟩ _
    change (Function.update s.entry _ _ _).isSet .crc = false
    rw [Function.update_self]
    rfl
  · rintro _ _ _ ⟨⟩

theorem read_md5 (e : Entry) (line : DbLine) : (e.read line).md5 = e.md5 := by
  unfold Entry.read
  split <;> rfl

/-- The entries and the MD5 chains after a property, which rewrites the current entry. -/
theorem addProperty_entries {a : ℕ} (h : Built s (some a) linked p) (line : DbLine) :
    ∃ e l, p = (e :: l, true) ∧ (Mupen64plus.addProperty s a line).list = s.list ∧
      (Mupen64plus.addProperty s a line).entries.reverse = e.read line :: l ∧
      (∀ x, x ≠ a → (Mupen64plus.addProperty s a line).entry x = s.entry x) ∧
      (Mupen64plus.addProperty s a line).entry a = e.read line ∧ e = s.entry a ∧
      (Mupen64plus.addProperty s a line).nextMd5 = s.nextMd5 ∧
      (Mupen64plus.addProperty s a line).md5Lists = s.md5Lists ∧
      (Mupen64plus.addProperty s a line).haveDatabase = s.haveDatabase := by
  obtain ⟨before, hlist⟩ := h.last a rfl
  have hnodup := h.nodup
  rw [hlist, List.nodup_append] at hnodup
  have hentry : (Mupen64plus.addProperty s a line).entry =
      Function.update s.entry a ((s.entry a).read line) := by
    unfold Mupen64plus.addProperty
    split <;> rfl
  have hsame : (Mupen64plus.addProperty s a line).list = s.list := by
    unfold Mupen64plus.addProperty
    split <;> rfl
  have hold := h.entries
  rw [RomIndex.entries, hlist, List.map_append, List.reverse_append] at hold
  refine ⟨s.entry a, (before.map s.entry).reverse, ?_, hsame, ?_, fun x hx => ?_, ?_, rfl, ?_⟩
  · exact Prod.ext hold.symm h.current.symm
  · have hbefore : ∀ x ∈ before,
        Function.update s.entry a ((s.entry a).read line) x = s.entry x := fun x hx =>
      Function.update_of_ne (hnodup.2.2 x hx a List.mem_cons_self) _ _
    rw [RomIndex.entries, hsame, hentry, hlist, List.map_append, List.reverse_append,
      List.map_congr_left hbefore, List.map_singleton, Function.update_self]
    rfl
  · rw [hentry, Function.update_of_ne hx]
  · rw [hentry, Function.update_self]
  · unfold Mupen64plus.addProperty
    split <;> exact ⟨rfl, rfl, rfl⟩

/-- All but the CRC chains after a property. -/
theorem addProperty {a : ℕ} (h : Built s (some a) linked p) {line : DbLine}
    {linked' : Option (Option (BitVec 8))} (hline : ∀ md5, line ≠ .iniSection md5)
    (hlinked : linked'.isSome)
    (hcrc : ∀ b, ∃ l, IsChain (Mupen64plus.addProperty s a line).nextCrc
      ((Mupen64plus.addProperty s a line).crcLists b) l ∧
        ∀ x, x ∈ l ↔ Indexed (Mupen64plus.addProperty s a line) b x)
    (hunlinked : linked' = some none → ((s.entry a).read line).isSet .crc = false)
    (hbyte : ∀ b, linked' = some (some b) →
      ((s.entry a).read line).isSet .crc ∧ crcByte ((s.entry a).read line).crc = b) :
    Built (Mupen64plus.addProperty s a line) (some a) linked' (readEntry p line) := by
  obtain ⟨e, l, rfl, hlist, hentries, hother, hself, rfl, hnext, hhead, hhave⟩ :=
    h.addProperty_entries line
  have hread : readEntry (s.entry a :: l, true) line = ((s.entry a).read line :: l, true) := by
    cases line with
    | iniSection md5 => exact absurd rfl (hline md5)
    | _ => rfl
  rw [hread]
  refine ⟨hhave.trans h.haveDatabase, hentries, hlist ▸ h.nodup, rfl, hlinked, ?_, ?_, hcrc, ?_, ?_⟩
  · exact fun x hx => hlist ▸ h.last x hx
  · intro b
    rw [hnext, hhead, hlist]
    have hfilter : (s.list.filter fun x =>
        ((Mupen64plus.addProperty s a line).entry x).md5 0 = b) =
          s.list.filter fun x => (s.entry x).md5 0 = b := by
      refine List.filter_congr fun x _ => ?_
      rcases eq_or_ne x a with rfl | hx
      · rw [hself, read_md5]
      · rw [hother x hx]
    rw [hfilter]
    exact h.md5 b
  · rintro _ ⟨rfl⟩ hnone
    rw [hself]
    exact hunlinked hnone
  · rintro _ b ⟨rfl⟩ hsome
    unfold Indexed
    rw [hlist, hself]
    exact ⟨h.mem_of_search rfl, hbyte b hsome⟩

/-- A property that leaves the current entry in the CRC chain it is in. -/
theorem addProperty_keep {a : ℕ} (h : Built s (some a) linked p) {line : DbLine}
    (hline : ∀ md5, line ≠ .iniSection md5) (hcrc : ∀ pair, line ≠ .crc (some pair))
    (hset : ((s.entry a).read line).isSet .crc = (s.entry a).isSet .crc)
    (hbyte : (s.entry a).isSet .crc →
      crcByte ((s.entry a).read line).crc = crcByte (s.entry a).crc) :
    Built (Mupen64plus.addProperty s a line) (some a) linked (readEntry p line) := by
  obtain ⟨_, _, -, hlist, -, hother, hself, rfl, -⟩ := h.addProperty_entries line
  have hchains : (Mupen64plus.addProperty s a line).nextCrc = s.nextCrc ∧
      (Mupen64plus.addProperty s a line).crcLists = s.crcLists := by
    unfold Mupen64plus.addProperty
    split
    next pair => exact absurd rfl (hcrc pair)
    next => exact ⟨rfl, rfl⟩
  refine h.addProperty hline ?_ (fun b => ?_) (fun hnone => ?_) fun b hsome => ?_
  · rw [h.linked_isSome, ← h.current]
    rfl
  · obtain ⟨l, hl, hmem⟩ := h.crc b
    rw [hchains.1, hchains.2]
    refine ⟨l, hl, fun x => (hmem x).trans ?_⟩
    unfold Indexed
    rw [hlist]
    rcases eq_or_ne x a with rfl | hx
    · rw [hself, hset]
      exact and_congr_right fun _ => and_congr_right fun hx => by rw [hbyte hx]
    · rw [hother x hx]
  · rw [hset]
    exact h.unlinked a rfl hnone
  · obtain ⟨-, hx, hb⟩ := h.linked_byte a b rfl hsome
    rw [hset, hbyte hx]
    exact ⟨hx, hb⟩

/-- A first `CRC` line, which puts the current entry at the head of a chain. -/
theorem addProperty_link {a : ℕ} (h : Built s (some a) (some none) p)
    (pair : BitVec 32 × BitVec 32) :
    Built (Mupen64plus.addProperty s a (.crc (some pair))) (some a) (some (some (crcByte pair)))
      (readEntry p (.crc (some pair))) := by
  have hunset := h.unlinked a rfl rfl
  have hset : ((s.entry a).read (.crc (some pair))).isSet .crc = true := by
    change Function.update (s.entry a).isSet RomAttribute.crc true RomAttribute.crc = true
    exact Function.update_self _ _ _
  have hvalue : ((s.entry a).read (.crc (some pair))).crc = pair :=
    Function.update_self (β := RomAttribute.Value) .crc pair (s.entry a).value
  refine h.addProperty (fun _ => DbLine.noConfusion) rfl (fun b => ?_) (fun hnone => nomatch hnone)
    fun b hsome => ⟨hset, by rw [hvalue]; exact Option.some_inj.mp (Option.some_inj.mp hsome)⟩
  obtain ⟨l, hl, hmem⟩ := h.crc b
  have hnotin : a ∉ l := fun ha => by
    obtain ⟨-, hisSet, -⟩ := (hmem a).mp ha
    exact absurd (hunset.symm.trans hisSet) (by decide)
  change ∃ l, IsChain (Function.update s.nextCrc a (s.crcLists (crcByte pair)))
    (Function.update s.crcLists (crcByte pair) (some a) b) l ∧
      ∀ x, x ∈ l ↔ x ∈ s.list ∧
        (Function.update s.entry a ((s.entry a).read (.crc (some pair))) x).isSet .crc ∧
        crcByte (Function.update s.entry a ((s.entry a).read (.crc (some pair))) x).crc = b
  rcases eq_or_ne b (crcByte pair) with rfl | hb
  · rw [Function.update_self]
    refine ⟨a :: l, hl.push hnotin, fun x => ?_⟩
    rw [List.mem_cons, hmem]
    rcases eq_or_ne x a with rfl | hx
    · rw [Function.update_self, hvalue]
      exact iff_of_true (.inl rfl) ⟨h.mem_of_search rfl, hset, rfl⟩
    · rw [Function.update_of_ne hx]
      exact or_iff_right hx
  · rw [Function.update_of_ne hb]
    refine ⟨l, hl.update hnotin, fun x => (hmem x).trans ?_⟩
    unfold Indexed
    rcases eq_or_ne x a with rfl | hx
    · rw [Function.update_self, hvalue]
      exact iff_of_false (fun hx => absurd (hunset.symm.trans hx.2.1) (by decide))
        fun hx => hb hx.2.2.symm
    · rw [Function.update_of_ne hx]

theorem readEntry_closed (l : List Entry) {line : DbLine}
    (hline : ∀ md5, line ≠ .iniSection (some md5)) : readEntry (l, false) line = (l, false) := by
  cases line with
  | iniSection md5 =>
    cases md5 with
    | some md5 => exact absurd rfl (hline md5)
    | none => rfl
  | _ => cases l <;> rfl

/-- A line before any section, or after an invalid one. -/
theorem readLine_ignored (alloc : Allocator) (h : Built s none linked p) {line : DbLine}
    (hline : ∀ md5, line ≠ .iniSection (some md5)) (honce : CrcOnce linked (line :: rest)) :
    CrcOnce none rest ∧ Mupen64plus.readLine alloc (s, none) line = (s, none) ∧
      Built s none none (readEntry p line) := by
  obtain ⟨l, hp⟩ : ∃ l, p = (l, false) := ⟨p.1, Prod.ext rfl h.current.symm⟩
  have hnone : linked = none := by
    have hlinked := h.linked_isSome
    rw [hp] at hlinked
    exact Option.isSome_eq_false_iff.mp hlinked |> Option.isNone_iff_eq_none.mp
  subst hnone hp
  rw [readEntry_closed l hline]
  cases line with
  | iniSection md5 =>
    cases md5 with
    | some md5 => exact absurd rfl (hline md5)
    | none => exact ⟨honce, rfl, h⟩
  | crc pair => cases pair <;> exact ⟨honce, rfl, h⟩
  | _ => exact ⟨honce, rfl, h⟩

/-- A property of the current section. -/
theorem readLine_property {a : ℕ} (h : Built s (some a) linked p) {line : DbLine}
    (hline : ∀ md5, line ≠ .iniSection md5) (honce : CrcOnce linked (line :: rest)) :
    ∃ linked', CrcOnce linked' rest ∧
      Built (Mupen64plus.addProperty s a line) (some a) linked' (readEntry p line) := by
  obtain ⟨link, rfl⟩ : ∃ link, linked = some link := by
    rw [← Option.isSome_iff_exists, h.linked_isSome, ← h.current]
    rfl
  cases line with
  | iniSection md5 => exact absurd rfl (hline md5)
  | crc pair =>
    cases pair with
    | some pair =>
      cases link with
      | none => exact ⟨_, honce, h.addProperty_link pair⟩
      | some b => exact honce.elim
    | none =>
      have hvalue : ((s.entry a).read (.crc none)).crc = (0, 0) :=
        Function.update_self (β := RomAttribute.Value) RomAttribute.crc _ (s.entry a).value
      cases link with
      | none =>
        refine ⟨_, honce, h.addProperty_keep hline (fun _ => nofun) rfl fun hset => ?_⟩
        exact absurd ((h.unlinked a rfl rfl).symm.trans hset) (by decide)
      | some b =>
        -- the numbers that are cleared have the byte of the chain only if that is 0
        obtain ⟨rfl, hrest⟩ := honce
        refine ⟨_, hrest, h.addProperty_keep hline (fun _ => nofun) rfl fun _ => ?_⟩
        rw [hvalue, (h.linked_byte a 0 rfl rfl).2.2]
        rfl
  | refmd5 md5 =>
    cases md5 <;> exact ⟨_, honce, h.addProperty_keep hline (fun _ => nofun) rfl fun _ => rfl⟩
  | property attr hne v =>
    refine ⟨_, honce, h.addProperty_keep hline (fun _ => nofun) ?_ fun _ => ?_⟩
    · exact Function.update_of_ne hne.symm _ _
    · exact congrArg crcByte (Function.update_of_ne (β := RomAttribute.Value) hne.symm v _)
  | cheat v => exact ⟨_, honce, h.addProperty_keep hline (fun _ => nofun) rfl fun _ => rfl⟩
  | ignored => exact ⟨_, honce, h.addProperty_keep hline (fun _ => nofun) rfl fun _ => rfl⟩

/-- A line. -/
theorem readLine (alloc : Allocator) (h : Built s search linked p) {line : DbLine}
    (honce : CrcOnce linked (line :: rest)) :
    ∃ linked', CrcOnce linked' rest ∧
      Built (Mupen64plus.readLine alloc (s, search) line).1
        (Mupen64plus.readLine alloc (s, search) line).2 linked' (readEntry p line) := by
  by_cases hsection : ∃ md5, line = .iniSection md5
  · obtain ⟨md5, rfl⟩ := hsection
    cases md5 with
    | some md5 =>
      refine ⟨some none, ?_, h.addSection md5⟩
      cases linked <;> exact honce
    | none =>
      refine ⟨none, ?_, ?_⟩
      · cases linked <;> exact honce
      · exact ⟨h.haveDatabase, h.entries, h.nodup, rfl, rfl, nofun, h.md5, h.crc, nofun, nofun⟩
  · have hline : ∀ md5, line ≠ .iniSection md5 := fun md5 h => hsection ⟨md5, h⟩
    cases search with
    | none =>
      obtain ⟨hrest, hread, hbuilt⟩ := h.readLine_ignored alloc
        (fun md5 => hline (some md5)) honce
      rw [hread]
      exact ⟨none, hrest, hbuilt⟩
    | some a =>
      have hread : Mupen64plus.readLine alloc (s, some a) line =
          (Mupen64plus.addProperty s a line, some a) := by
        cases line with
        | iniSection md5 => exact absurd rfl (hline md5)
        | _ => rfl
      rw [hread]
      exact h.readLine_property hline honce

/-- A file. -/
theorem readLines (alloc : Allocator) (lines : List DbLine) (h : Built s search linked p)
    (honce : CrcOnce linked lines) :
    ∃ linked', Built (lines.foldl (Mupen64plus.readLine alloc) (s, search)).1
      (lines.foldl (Mupen64plus.readLine alloc) (s, search)).2 linked'
        (lines.foldl readEntry p) := by
  induction lines generalizing s search linked p with
  | nil => exact ⟨linked, h⟩
  | cons line rest ih =>
    obtain ⟨linked', hrest, hbuilt⟩ := h.readLine alloc honce
    exact ih hbuilt hrest

end Built

-- ════════════════════
-- Resolving
-- ════════════════════

section

variable {n : ℕ} {db : RomDatabase n}

theorem isSet_of_resolved {l : List (Fin n)} {i : Fin n} {a : RomAttribute}
    (h : (resolved db l i).isSet a) : ∃ j ∈ i :: l, (db j).isSet a := by
  induction l generalizing i with
  | nil => exact ⟨i, List.mem_cons_self, h⟩
  | cons j l ih =>
    rcases (Bool.or_eq_true _ _).mp h with hown | href
    · exact ⟨i, List.mem_cons_self, hown⟩
    · obtain ⟨k, hk, hset⟩ := ih href
      exact ⟨k, List.mem_cons_of_mem i hk, hset⟩

/-- What the resolution does to the CRCs. -/
theorem resolve_crc (db : RomDatabase n) : ∃ db', romdatabaseResolve (n + 2) none db = some db' ∧
    (∀ i, (db' i).md5 = (db i).md5) ∧
    (∀ i, (db i).isSet .crc → (db' i).isSet .crc ∧ (db' i).crc = (db i).crc) ∧
    ∀ i, (db' i).isSet .crc → (db i).isSet .crc = false →
      ∃ l, RefChain db i l ∧ (∃ j ∈ l, (db j).isSet .crc) ∧ (db' i).crc = chainValue db l .crc := by
  obtain ⟨db', hrun, hchain, hastray⟩ := resolve_outcome db
  have hcases : ∀ i, db' i = db i ∨
      ∃ rest, RefChain db i (i :: rest) ∧ db' i = resolved db rest i := by
    intro i
    by_cases hi : ∃ l, RefChain db i l
    · obtain ⟨l, hl⟩ := hi
      obtain ⟨rest, rfl⟩ := hl.head
      exact .inr ⟨rest, hl, hchain i rest hl⟩
    · exact .inl (hastray i fun l hl => hi ⟨l, hl⟩)
  refine ⟨db', hrun, fun i => ?_, fun i hset => ?_, fun i hset hunset => ?_⟩
  · rcases hcases i with hi | ⟨rest, -, hi⟩ <;> rw [hi]
    cases rest <;> rfl
  · rcases hcases i with hi | ⟨rest, -, hi⟩ <;> rw [hi]
    · exact ⟨hset, rfl⟩
    · cases rest with
      | nil => exact ⟨hset, rfl⟩
      | cons j rest =>
        refine ⟨(Bool.or_eq_true _ _).mpr (.inl hset), ?_⟩
        exact (Entry.inherit_value _ _ _).trans (if_pos hset)
  · rcases hcases i with hi | ⟨rest, hl, hi⟩
    · rw [hi] at hset
      exact absurd (hunset.symm.trans hset) (by decide)
    · rw [hi] at hset ⊢
      exact ⟨i :: rest, hl, isSet_of_resolved hset, hl.resolved_value .crc⟩

end

section

variable {s : RomIndex}

theorem length_entries (s : RomIndex) : s.entries.length = s.list.length := List.length_map _

/-- The entry of the list at an address. -/
def RomIndex.indexOf (s : RomIndex) {a : ℕ} (h : a ∈ s.list) : Fin s.entries.length :=
  ⟨s.list.idxOf a, (List.idxOf_lt_length_of_mem h).trans_eq (length_entries s).symm⟩

theorem databaseOf_indexOf {a : ℕ} (h : a ∈ s.list) :
    databaseOf s.entries (s.indexOf h) = s.entry a :=
  (List.getElem_map _).trans
    (congrArg s.entry (List.getElem_idxOf (List.idxOf_lt_length_of_mem h)))

theorem exists_indexOf (hnodup : s.list.Nodup) (i : Fin s.entries.length) :
    ∃ a, ∃ h : a ∈ s.list, s.indexOf h = i := by
  have hi : i < s.list.length := i.isLt.trans_eq (length_entries s)
  exact ⟨s.list[i], List.getElem_mem hi, Fin.ext (hnodup.idxOf_getElem i hi)⟩

/-- The database after the resolution, whose chains and list are as before. -/
structure Settled (s s' : RomIndex) : Prop where
  haveDatabase : s'.haveDatabase = s.haveDatabase
  list : s'.list = s.list
  nextCrc : s'.nextCrc = s.nextCrc
  nextMd5 : s'.nextMd5 = s.nextMd5
  crcLists : s'.crcLists = s.crcLists
  md5Lists : s'.md5Lists = s.md5Lists
  md5 : ∀ a ∈ s.list, (s'.entry a).md5 = (s.entry a).md5
  crc : ∀ a ∈ s.list, (s.entry a).isSet .crc →
    (s'.entry a).isSet .crc ∧ (s'.entry a).crc = (s.entry a).crc
  inherited : ∀ a ∈ s.list, (s'.entry a).isSet .crc → (s.entry a).isSet .crc = false →
    ∃ x y, x ≠ y ∧ HasCrc s (s'.entry a).crc x ∧ HasCrc s (s'.entry a).crc y

theorem settled_resolveIndex (hnodup : s.list.Nodup)
    (hclean : InheritsClean (databaseOf s.entries)) : Settled s (resolveIndex s) := by
  obtain ⟨db', hrun, hmd5, hcrc, hinherited⟩ := resolve_crc (databaseOf s.entries)
  have hentry : ∀ a, ∀ h : a ∈ s.list, (resolveIndex s).entry a = db' (s.indexOf h) := by
    intro a h
    unfold resolveIndex
    simp only [hrun]
    exact dif_pos h
  have hframe : (resolveIndex s).haveDatabase = s.haveDatabase ∧
      (resolveIndex s).list = s.list ∧ (resolveIndex s).nextCrc = s.nextCrc ∧
      (resolveIndex s).nextMd5 = s.nextMd5 ∧ (resolveIndex s).crcLists = s.crcLists ∧
      (resolveIndex s).md5Lists = s.md5Lists := by
    unfold resolveIndex
    simp only [hrun, and_self]
  obtain ⟨hhave, hlist, hnextCrc, hnextMd5, hcrcLists, hmd5Lists⟩ := hframe
  refine ⟨hhave, hlist, hnextCrc, hnextMd5, hcrcLists, hmd5Lists, fun a h => ?_, fun a h hset => ?_,
    fun a h hset hunset => ?_⟩
  · rw [hentry a h, hmd5, databaseOf_indexOf]
  · rw [← databaseOf_indexOf h] at hset ⊢
    rw [hentry a h]
    exact hcrc _ hset
  · rw [hentry a h] at hset ⊢
    rw [← databaseOf_indexOf h] at hunset
    obtain ⟨l, hl, hmem, hvalue⟩ := hinherited _ hset hunset
    obtain ⟨j, k, hne, hj, hk⟩ := hclean _ l hunset hl hmem
    obtain ⟨x, hx, rfl⟩ := exists_indexOf hnodup j
    obtain ⟨y, hy, rfl⟩ := exists_indexOf hnodup k
    rw [databaseOf_indexOf, ← hvalue] at hj hk
    refine ⟨x, y, fun heq => hne ?_, ⟨hx, hj⟩, hy, hk⟩
    subst heq
    rfl

end

-- ════════════════════
-- Searching
-- ════════════════════

/-- The element of a list of one. -/
def alone : List ℕ → Option ℕ
  | [a] => some a
  | _ => none

theorem alone_eq_some_iff {l : List ℕ} {a : ℕ} (hl : l.Nodup) :
    alone l = some a ↔ ∀ x, x ∈ l ↔ x = a := by
  have heq : alone l = some a ↔ l = [a] := by
    cases l with
    | nil => exact iff_of_false nofun nofun
    | cons b l =>
      cases l with
      | nil => exact Option.some_inj.trans (List.singleton_inj).symm
      | cons c l => exact iff_of_false nofun nofun
  rw [heq, ← List.perm_singleton, List.perm_ext_iff_of_nodup hl (List.nodup_singleton a)]
  simp only [List.mem_singleton]

section

variable {s s' : RomIndex} {p : Option ℕ} {l : List ℕ}

/-- The loop for a CRC finds the node of the chain that alone has it. -/
theorem crcLoop_eq (h : IsChain s.nextCrc p l) (pair : BitVec 32 × BitVec 32)
    (foundEntry : Option ℕ) : crcLoop s pair l.length foundEntry p =
      some (alone (foundEntry.toList ++ l.filter fun a => (s.entry a).crc = pair)) := by
  induction h generalizing foundEntry with
  | nil => cases foundEntry <;> rfl
  | @cons a l _ ih =>
    rw [List.length_cons, crcLoop]
    by_cases ha : (s.entry a).crc = pair
    · rw [if_pos ha, List.filter_cons_of_pos (by simpa using ha)]
      cases foundEntry with
      | some f => rfl
      | none =>
        rw [if_neg (by simp), ih]
        rfl
    · rw [if_neg ha, List.filter_cons_of_neg (by simpa using ha), ih]

/-- The entry that the chains of a file find for an MD5 is the one that the list of entries has. -/
theorem searchByMd5_eq {search : Option ℕ} {linked : Option (Option (BitVec 8))}
    {q : List Entry × Bool} (h : Built s search linked q) (md5 : Md5) :
    ∃ fuel, searchByMd5 s md5 fuel =
      some ((iniSearchByMd5 (databaseOf s.entries) md5).map fun i =>
        s.list.get (i.cast (length_entries s))) := by
  have hlist : s.list =
      (List.finRange s.entries.length).map fun i => s.list.get (i.cast (length_entries s)) := by
    refine List.ext_getElem (by simp [length_entries]) fun i hi hi' => ?_
    rw [List.getElem_map, List.getElem_finRange]
    rfl
  have hentry : ∀ i : Fin s.entries.length,
      s.entry (s.list.get (i.cast (length_entries s))) = databaseOf s.entries i := fun i =>
    (List.getElem_map s.entry).symm
  refine ⟨_, (if_pos h.haveDatabase).trans (((h.md5 (md5 0)).find _).trans (congrArg some ?_))⟩
  conv_lhs => rw [hlist]
  rw [List.filter_map, ← List.map_reverse, List.find?_map]
  simp only [Function.comp_def, hentry]
  rfl

/-- The index of a file that is read and resolved. -/
theorem indexSound_of_settled {search : Option ℕ} {linked : Option (Option (BitVec 8))}
    {q : List Entry × Bool} (h : Built s search linked q) (hs : Settled s s') : IndexSound s' := by
  have hhave : s'.haveDatabase = true := hs.haveDatabase.trans h.haveDatabase
  constructor
  · intro b
    obtain ⟨l, hl, hmem⟩ := h.crc b
    rw [hs.crcLists, hs.nextCrc]
    refine ⟨l, hl, hl.nodup, fun a ha => ?_⟩
    obtain ⟨hlist, hset, hbyte⟩ := (hmem a).mp ha
    exact ⟨hs.list ▸ hlist, (congrArg crcByte (hs.crc a hlist hset).2).trans hbyte⟩
  · intro b
    rw [hs.md5Lists, hs.nextMd5]
    refine ⟨_, h.md5 b, (h.md5 b).nodup, fun a ha => ?_⟩
    obtain ⟨hlist, hbyte⟩ := List.mem_filter.mp (List.mem_reverse.mp ha)
    exact ⟨hs.list ▸ hlist, (congrFun (hs.md5 a hlist) 0).trans (of_decide_eq_true hbyte)⟩
  · intro md5
    have hfind := (h.md5 (md5 0)).find fun a => (s'.entry a).md5 = md5
    rw [← hs.md5Lists, ← hs.nextMd5] at hfind
    exact ⟨_, _, (if_pos hhave).trans hfind⟩
  · intro pair
    obtain ⟨l, hl, hmem⟩ := h.crc (crcByte pair)
    have hchain : IsChain s'.nextCrc (s'.crcLists (crcByte pair)) l := by
      rwa [hs.nextCrc, hs.crcLists]
    have hloop := crcLoop_eq hchain pair none
    refine ⟨_, _, (if_pos hhave).trans hloop, fun a => ?_⟩
    change alone (l.filter fun a => (s'.entry a).crc = pair) = some a ↔ _
    rw [alone_eq_some_iff (hl.nodup.filter _)]
    have hold : ∀ x, x ∈ (l.filter fun a => (s'.entry a).crc = pair) ↔ HasCrc s pair x := by
      intro x
      rw [List.mem_filter, hmem, decide_eq_true_eq]
      constructor
      · rintro ⟨⟨hx, hset, -⟩, hcrc⟩
        exact ⟨hx, hset, (hs.crc x hx hset).2 ▸ hcrc⟩
      · rintro ⟨hx, hset, rfl⟩
        exact ⟨⟨hx, hset, rfl⟩, (hs.crc x hx hset).2⟩
    have hkept : ∀ x, HasCrc s pair x → HasCrc s' pair x := by
      rintro x ⟨hx, hset, rfl⟩
      obtain ⟨hset', hcrc⟩ := hs.crc x hx hset
      exact ⟨hs.list ▸ hx, hset', hcrc⟩
    have hnew : ∀ x, HasCrc s' pair x → HasCrc s pair x ∨
        ∃ y z, y ≠ z ∧ HasCrc s pair y ∧ HasCrc s pair z := by
      rintro x ⟨hx, hset, rfl⟩
      rw [hs.list] at hx
      cases hunset : (s.entry x).isSet .crc with
      | true => exact .inl ⟨hx, hunset, (hs.crc x hx hunset).2.symm⟩
      | false => exact .inr (hs.inherited x hx hset hunset)
    simp only [hold]
    constructor
    · intro honly
      have htwo : ¬∃ y z, y ≠ z ∧ HasCrc s pair y ∧ HasCrc s pair z := by
        rintro ⟨y, z, hne, hy, hz⟩
        exact hne (((honly y).mp hy).trans ((honly z).mp hz).symm)
      refine ⟨hkept a ((honly a).mpr rfl), fun x hx => ?_⟩
      exact (honly x).mp ((hnew x hx).resolve_right htwo)
    · rintro ⟨ha, honly⟩ x
      have htwo : ¬∃ y z, y ≠ z ∧ HasCrc s pair y ∧ HasCrc s pair z := by
        rintro ⟨y, z, hne, hy, hz⟩
        exact hne ((honly y (hkept y hy)).trans (honly z (hkept z hz)).symm)
      constructor
      · exact fun hx => honly x (hkept x hx)
      · rintro rfl
        exact (hnew x ha).resolve_right htwo

end

-- ════════════════════
-- Runs
-- ════════════════════

section

variable {alloc : Allocator} {s : RomIndex}

theorem clearLists_eq {lists : BitVec 8 → Option ℕ} (h : lists 0xff = none) (b : BitVec 8) :
    clearLists lists b = none := by
  unfold clearLists
  split
  · rfl
  next hb =>
    have hlt := b.isLt
    have hlast : b = 0xff := BitVec.eq_of_toNat_eq (show b.toNat = 255 by omega)
    rw [hlast, h]

/-- An admissible file is indexed soundly. -/
theorem indexSound_romdatabaseOpen {lines : List DbLine} (hclosed : s.haveDatabase = false)
    (h : Admissible s (.openFile lines)) : IndexSound (romdatabaseOpen alloc lines s) := by
  obtain ⟨hcrc, hmd5, honce, hclean⟩ := h hclosed
  have hempty : Built { s with
      haveDatabase := true
      crcLists := clearLists s.crcLists
      md5Lists := clearLists s.md5Lists
      list := [] } none none ([], false) := by
    refine ⟨rfl, rfl, List.nodup_nil, rfl, rfl, nofun, fun b => ?_, fun b => ?_, nofun, nofun⟩
    · change IsChain s.nextMd5 (clearLists s.md5Lists b) []
      rw [clearLists_eq hmd5]
      exact .nil
    · refine ⟨[], ?_, fun a => iff_of_false nofun fun ha => nomatch ha.1⟩
      change IsChain s.nextCrc (clearLists s.crcLists b) []
      rw [clearLists_eq hcrc]
      exact .nil
  obtain ⟨linked, hbuilt⟩ := hempty.readLines alloc lines honce
  unfold romdatabaseOpen
  rw [if_neg (by simp [hclosed])]
  refine indexSound_of_settled hbuilt (settled_resolveIndex hbuilt.nodup ?_)
  have hentries := congrArg List.reverse hbuilt.entries
  rw [List.reverse_reverse] at hentries
  rw [hentries]
  exact hclean

theorem indexSound_romStep {op : RomOp} (hs : s.haveDatabase = true → IndexSound s)
    (h : Admissible s op) (hopen : (romStep alloc s op).haveDatabase = true) :
    IndexSound (romStep alloc s op) := by
  cases hhave : s.haveDatabase with
  | true =>
    cases op with
    | openFile lines =>
      have hsame : romStep alloc s (.openFile lines) = s := if_pos hhave
      rw [hsame]
      exact hs hhave
    | openFailed => exact hs hhave
    | close =>
      change (romdatabaseClose s).haveDatabase = true at hopen
      unfold romdatabaseClose at hopen
      rw [if_pos hhave] at hopen
      exact nomatch hopen
  | false =>
    cases op with
    | openFile lines => exact indexSound_romdatabaseOpen hhave h
    | openFailed => exact absurd (hhave.symm.trans hopen) (by decide)
    | close =>
      have hsame : romStep alloc s .close = s := if_neg (by simp [hhave])
      rw [hsame] at hopen
      exact absurd (hhave.symm.trans hopen) (by decide)

theorem indexSound_romRun {ops : List RomOp} (hs : s.haveDatabase = true → IndexSound s)
    (h : AdmissibleRun alloc s ops) (hopen : (romRun alloc s ops).haveDatabase = true) :
    IndexSound (romRun alloc s ops) := by
  induction ops generalizing s with
  | nil => exact hs hopen
  | cons op rest ih => exact ih (indexSound_romStep hs h.1) h.2 hopen

theorem AdmissibleRun.take {ops : List RomOp} (h : AdmissibleRun alloc s ops) (n : ℕ) :
    AdmissibleRun alloc s (ops.take n) := by
  induction ops generalizing s n with
  | nil => rwa [List.take_nil]
  | cons op rest ih =>
    cases n with
    | zero => trivial
    | succ n => exact ⟨h.1, ih h.2 n⟩

end

/-- The index is sound in every state of an admissible run in which a database is open. -/
theorem indexSound_of_admissible (alloc : Allocator) (ops : List RomOp)
    (h : AdmissibleRun alloc .initial ops) (n : ℕ)
    (hopen : (romRun alloc .initial (ops.take n)).haveDatabase = true) :
    IndexSound (romRun alloc .initial (ops.take n)) :=
  indexSound_romRun (fun hinitial => nomatch hinitial) (h.take n) hopen

/-- An allocator that gives out the address after the last one in use. -/
def nextAddress : Allocator where
  malloc live := live.foldr max 0 + 1
  fresh live h := by
    have hle : ∀ l : List ℕ, ∀ a ∈ l, a ≤ l.foldr max 0 := by
      intro l
      induction l with
      | nil => exact nofun
      | cons b l ih =>
        intro a ha
        rcases List.mem_cons.mp ha with rfl | ha
        · exact le_max_left _ _
        · exact (ih a ha).trans (le_max_right _ _)
    exact absurd (hle live _ h) (Nat.not_succ_le_self _)

/-- A section with a CRC, which is opened, closed and opened again. -/
def oneEntry : List DbLine :=
  [.iniSection (some fun _ => 0x42), .crc (some (0x12345678, 0x9abcdef0))]

theorem oneEntry_clean : InheritsClean (databaseOf (fileEntries oneEntry)) := by
  intro i l hunset
  have hset : ∀ j, (databaseOf (fileEntries oneEntry) j).isSet .crc = true := by decide
  exact absurd ((hset i).symm.trans hunset) (by decide)

theorem reopened_indexSound : IndexSound (romRun nextAddress .initial
    ([.openFile oneEntry, .close, .openFile oneEntry].take 3)) := by
  refine indexSound_of_admissible nextAddress [.openFile oneEntry, .close, .openFile oneEntry]
    ⟨fun _ => ⟨rfl, rfl, trivial, oneEntry_clean⟩, trivial, fun _ => ⟨?_, ?_, trivial,
      oneEntry_clean⟩, trivial⟩ 3 ?_ <;> decide

/-- A section with the same CRC twice. -/
def twoCrcLines : List DbLine := [.iniSection (some fun _ => 0), .crc (some (0, 0)),
  .crc (some (0, 0))]

/-- The second line makes the entry lead to itself. -/
theorem two_crc_lines_not_sound : ¬∀ (alloc : Allocator) (ops : List RomOp),
    (romRun alloc .initial ops).haveDatabase = true → IndexSound (romRun alloc .initial ops) := by
  intro h
  have hsound := h nextAddress [.openFile twoCrcLines] (by decide)
  obtain ⟨l, hl, -⟩ := hsound.crcLists 0
  have hhead : (romRun nextAddress .initial [.openFile twoCrcLines]).crcLists 0 = some 1 := by
    decide
  have hnext : (romRun nextAddress .initial [.openFile twoCrcLines]).nextCrc 1 = some 1 := by
    decide
  rw [hhead] at hl
  exact not_isChain_of_loop hnext l hl

end Mupen64plus
