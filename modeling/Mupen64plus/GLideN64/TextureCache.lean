import Mathlib.Algebra.Order.Ring.Nat
import Mupen64plus.Lib.FinLiterals
import Mupen64plus.Lib.NodeList

/-!
# The texture cache

`Textures.cpp`: the textures the renderer has made of what lies in the texture memory, the most
recently used in front, found by a checksum. A texture of a pack, or one that is enhanced, is an HD
texture; how much memory those take is limited.

## Main definitions

- `CachedTexture`, `TextureCache`
- `TextureCache.checkHdTexLimit`, `TextureCache.checkCacheSize`, `TextureCache.addTexture`
- `TextureCache.updateTile`, `TextureCache.updateBackground` — one look for a texture, which is
  loaded if it is not there
- `TextureCache.step` — the calls, one after the other
-/

namespace Mupen64plus

/-- What the cache reads of a texture. `name` is the name of the texture in GL. -/
structure CachedTexture where
  name : ℕ
  crc : BitVec 64
  textureBytes : BitVec 32
  width : BitVec 16
  height : BitVec 16
  bHDTexture : Bool

/-- What a pointer to a texture points at: an entry of the cache, or the texture of a frame buffer,
    which is not in the list. -/
inductive TextureRef where
  | entry (i : ℕ)
  | frameBuffer (crc : BitVec 64)
  deriving DecidableEq, Repr

/-- `created` counts the textures that were created for entries, and are named by; `deleted` lists
    those that were deleted. -/
structure TextureCache where
  textures : NodeList CachedTexture
  locations : BitVec 64 → Option ℕ
  current : Fin 2 → Option TextureRef
  hdTexCacheSize : BitVec 64
  created : ℕ
  deleted : List ℕ

/-- As `init` leaves it. -/
def TextureCache.empty : TextureCache where
  textures :=
    { order := []
      node := fun _ => ⟨0, 0, 0, 0, 0, false⟩
      next := 0 }
  locations := fun _ => none
  current := fun _ => none
  hdTexCacheSize := 0
  created := 0
  deleted := []

/-- The `GHQTexInfo` of a texture of a pack or an enhanced one. `wide`: its format is not one of two
    bytes. -/
structure HdInfo where
  width : BitVec 32
  height : BitVec 32
  wide : Bool

/-- What `_loadFast`, `_loadAccurate` or `_loadBackground` comes to: the texture as it is, or an HD
    one in its place. -/
structure LoadedTexture where
  textureBytes : BitVec 32
  hd : Option HdInfo

/-- What `update` computes of a tile: the sizes, the key, and the texture it loads if it has to. -/
structure TileUpdate where
  replaceTex1ByTex0 : Bool
  crc : BitVec 64
  width : BitVec 32
  height : BitVec 32
  loaded : LoadedTexture

structure BackgroundUpdate where
  crc : BitVec 64
  width : BitVec 16
  height : BitVec 16
  loaded : LoadedTexture

def HdInfo.textureBytes (info : HdInfo) : BitVec 32 :=
  (info.width * info.height) <<< (if info.wide then 2 else 1)

namespace TextureCache

variable (maxTxCacheSize txHiresVramLimit : BitVec 32) (s : TextureCache)

/-- What each path by which an entry leaves the list does. -/
def removeTexture (i : ℕ) : TextureCache :=
  let texture := s.textures.node i
  { s with
    textures := s.textures.erase i
    locations := Function.update s.locations texture.crc none
    hdTexCacheSize :=
      if texture.bHDTexture then s.hdTexCacheSize - texture.textureBytes.setWidth 64
      else s.hdTexCacheSize
    deleted := texture.name :: s.deleted }

/-- The product of `_checkHdTexLimit` is one of words. -/
def maxHdCacheSize : BitVec 64 := (txHiresVramLimit * 1024 * 1024).setWidth 64

/-- The loop of `_checkHdTexLimit`, from the entry before the `k`-th to the front. -/
def checkHdTexLimitLoop (maxCacheSize : BitVec 64) : ℕ → TextureCache → TextureCache
  | 0, s => s
  | k + 1, s =>
    if s.hdTexCacheSize < maxCacheSize then s
    else match s.textures.order[k]? with
      | none => s
      | some i =>
        if (s.textures.node i).bHDTexture then
          checkHdTexLimitLoop maxCacheSize k (s.removeTexture i)
        else checkHdTexLimitLoop maxCacheSize k s

/-- `_checkHdTexLimit`. -/
def checkHdTexLimit : TextureCache :=
  let maxCacheSize := maxHdCacheSize txHiresVramLimit
  if maxCacheSize = 0 then s
  else checkHdTexLimitLoop maxCacheSize s.textures.order.length s

/-- `_checkCacheSize`. -/
def checkCacheSize : TextureCache :=
  if maxTxCacheSize.toNat ≤ s.textures.order.length then
    match s.textures.order.getLast? with
    | none => s
    | some i => s.removeTexture i
  else s

/-- `_addTexture`, with the sizes its callers give the new entry. An `insert` leaves the entry of a
    key that is there already. -/
def addTexture (crc : BitVec 64) (width height : BitVec 16) : TextureCache :=
  let s := s.checkCacheSize maxTxCacheSize
  { s with
    textures := s.textures.emplaceFront ⟨s.created, crc, 0, width, height, false⟩
    locations :=
      if s.locations crc = none then Function.update s.locations crc (some s.textures.next)
      else s.locations
    created := s.created + 1 }

/-- `_updateCachedTexture` up to the check of the limit. -/
def setHdTexture (i : ℕ) (info : HdInfo) : TextureCache :=
  { s with
    textures := s.textures.modify i fun texture =>
      { texture with textureBytes := info.textureBytes, bHDTexture := true }
    hdTexCacheSize := s.hdTexCacheSize + info.textureBytes.setWidth 64 }

/-- What loading a texture does to the cache. -/
def loadTexture (i : ℕ) (loaded : LoadedTexture) : TextureCache :=
  match loaded.hd with
  | none =>
    { s with
      textures := s.textures.modify i fun texture =>
        { texture with textureBytes := loaded.textureBytes } }
  | some info => (s.setHdTexture i info).checkHdTexLimit txHiresVramLimit

/-- `activateTexture`. -/
def activateTexture (t : Fin 2) (texture : TextureRef) : TextureCache :=
  { s with current := Function.update s.current t (some texture) }

/-- A texture that is not there is added, loaded and activated. -/
def missTexture (t : Fin 2) (crc : BitVec 64) (width height : BitVec 16) (loaded : LoadedTexture) :
    TextureCache :=
  let s := s.addTexture maxTxCacheSize crc width height
  let pCurrent := s.textures.next - 1
  (s.loadTexture txHiresVramLimit pCurrent loaded).activateTexture t (.entry pCurrent)

def hitTexture (t : Fin 2) (i : ℕ) : TextureCache :=
  { s with textures := s.textures.moveFront i }.activateTexture t (.entry i)

/-- The checksum of the texture pointed at. -/
def crcOf : TextureRef → BitVec 64
  | .entry i => (s.textures.node i).crc
  | .frameBuffer crc => crc

/-- `update` from the key on. -/
def findTile (t : Fin 2) (tile : TileUpdate) : TextureCache :=
  let miss (s : TextureCache) :=
    s.missTexture maxTxCacheSize txHiresVramLimit t tile.crc (tile.width.setWidth 16)
      (tile.height.setWidth 16) tile.loaded
  if (s.current t).map s.crcOf = some tile.crc then s
  else match s.locations tile.crc with
    | none => miss s
    | some i =>
      let texture := s.textures.node i
      if texture.width.setWidth 32 = tile.width ∧ texture.height.setWidth 32 = tile.height then
        s.hitTexture t i
      else miss (s.removeTexture i)

/-- `update` in the normal mode. -/
def updateTile (t : Fin 2) (tile : TileUpdate) : TextureCache :=
  if t = 1 ∧ tile.replaceTex1ByTex0 then
    let s := { s with current := Function.update s.current 1 (s.current 0) }
    if s.current 1 ≠ none then s else s.findTile maxTxCacheSize txHiresVramLimit t tile
  else s.findTile maxTxCacheSize txHiresVramLimit t tile

/-- `_updateBackground`. -/
def updateBackground (bg : BackgroundUpdate) : TextureCache :=
  match s.locations bg.crc with
  | none => s.missTexture maxTxCacheSize txHiresVramLimit 0 bg.crc bg.width bg.height bg.loaded
  | some i => s.hitTexture 0 i

/-- `clear`. -/
def clear : TextureCache :=
  { s with
    textures := { s.textures with order := [] }
    locations := fun _ => none
    current := fun _ => none
    hdTexCacheSize := 0
    deleted := (s.textures.order.map fun i => (s.textures.node i).name).reverse ++ s.deleted }

end TextureCache

/-- A call of the cache: an `update` of a tile in the normal mode, in that of a background, or in
    that of a frame buffer, which activates the texture of one if there is such, and `clear`. -/
inductive TextureOp where
  | update (t : Fin 2) (tile : TileUpdate)
  | updateBackground (bg : BackgroundUpdate)
  | activateFrameBuffer (t : Fin 2) (crc : Option (BitVec 64))
  | clear

def TextureCache.step (maxTxCacheSize txHiresVramLimit : BitVec 32) (s : TextureCache) :
    TextureOp → TextureCache
  | .update t tile => s.updateTile maxTxCacheSize txHiresVramLimit t tile
  | .updateBackground bg => s.updateBackground maxTxCacheSize txHiresVramLimit bg
  | .activateFrameBuffer t (some crc) => s.activateTexture t (.frameBuffer crc)
  | .activateFrameBuffer _ none => s
  | .clear => s.clear

end Mupen64plus
