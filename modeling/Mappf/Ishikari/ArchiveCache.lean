import Mappf.Lib.HashMap
import Mappf.Pmtiles.BootstrapTransfer

/-! # The caches of the archive reader

`cache.rs`: bootstraps by tileset, each with the generation it was read under and the time after which it has to
be checked again; leaf directories by generation and range; and the tilesets found absent a moment ago. Times are
nanoseconds. An entry may vanish at any time (`evict`). -/
namespace Mappf.Ishikari
open Option

open Pmtiles (ArchiveBootstrap ArchiveKey Directory)

def absentArchiveTtl : ℕ := 10 ^ 9
def archiveRevalidationFailureCooldown : ℕ := 5 * 10 ^ 9

structure VersionedArchive (γ μ : Type) where
  key : ArchiveKey γ
  archive : ArchiveBootstrap
  metadata : Option μ

structure CachedArchive (γ μ : Type) where
  generation : γ
  archive : ArchiveBootstrap
  metadata : Option μ
  bootstrap : Bytes
  revalidateAfter : ℕ

structure LeafCacheKey (γ : Type) where
  archive : ArchiveKey γ
  offset : ℕ
  length : ℕ
  deriving DecidableEq

variable {γ μ : Type}

def CachedArchive.versioned (cached : CachedArchive γ μ) (tilesetId : String) : VersionedArchive γ μ where
  key := ⟨tilesetId, cached.generation⟩
  archive := cached.archive
  metadata := cached.metadata

variable [DecidableEq γ]

structure ArchiveCache (γ μ : Type) [DecidableEq γ] where
  archives : HashMap String (CachedArchive γ μ) := ∅
  leafs : HashMap (LeafCacheKey γ) Directory := ∅
  /-- When the absence of a tileset is forgotten. -/
  absent : HashMap String ℕ := ∅

namespace ArchiveCache

variable (cache : ArchiveCache γ μ) (now : ℕ) (tilesetId : String)

def get : Option (VersionedArchive γ μ) :=
  ((cache.archives.lookup tilesetId).filter (fun cached => now < cached.revalidateAfter)).map
    (CachedArchive.versioned · tilesetId)

def requiresRevalidation : Bool :=
  (cache.archives.lookup tilesetId).any (fun cached => cached.revalidateAfter ≤ now)

/-- `entry(..).and_compute_with(..)` that replaces an entry or leaves it. -/
def modify (f : CachedArchive γ μ → Option (CachedArchive γ μ)) : ArchiveCache γ μ :=
  match (cache.archives.lookup tilesetId).bind f with
  | some cached => { cache with archives := cache.archives.insert tilesetId cached }
  | none => cache

def deferExpiredRevalidation : ArchiveCache γ μ :=
  cache.modify tilesetId (fun cached =>
    if cached.revalidateAfter ≤ now then
      some { cached with revalidateAfter := now + archiveRevalidationFailureCooldown }
    else none)

def getBootstrapBytes (archive : ArchiveKey γ) : Option Bytes :=
  ((cache.archives.lookup archive.tilesetId).filter (fun cached => cached.generation = archive.generation)).map
    CachedArchive.bootstrap

/-- The first access of `put`. -/
def clearAbsence : ArchiveCache γ μ :=
  { cache with absent := cache.absent.erase tilesetId }

/-- The metadata `put` keeps: its own, or what is cached for the same generation. -/
def keptMetadata (archive : VersionedArchive γ μ) : Option μ :=
  archive.metadata.or (((cache.archives.lookup archive.key.tilesetId).filter
      (fun cached => cached.generation = archive.key.generation)).bind CachedArchive.metadata)

/-- The second access of `put`. -/
def install (archiveRevalidationInterval : ℕ) (archive : VersionedArchive γ μ) (bootstrap : Bytes) : ArchiveCache γ μ :=
  { cache with
    archives := cache.archives.insert archive.key.tilesetId
      { generation := archive.key.generation
        archive := archive.archive
        metadata := cache.keptMetadata archive
        bootstrap
        revalidateAfter := now + archiveRevalidationInterval } }

def isKnownAbsent (tilesetId : String) : Bool :=
  (cache.absent.lookup tilesetId).any (now < ·)

def markAbsent (tilesetId : String) : ArchiveCache γ μ :=
  { cache with absent := cache.absent.insert tilesetId (now + absentArchiveTtl) }

def putMetadata (archive : ArchiveKey γ) (metadata : μ) : ArchiveCache γ μ :=
  cache.modify archive.tilesetId (fun cached =>
    if cached.generation = archive.generation then some { cached with metadata := some metadata } else none)

def getLeaf (key : LeafCacheKey γ) : Option Directory := cache.leafs.lookup key

def putLeaf (key : LeafCacheKey γ) (directory : Directory) : ArchiveCache γ μ :=
  { cache with leafs := cache.leafs.insert key directory }

def invalidateGeneration (archive : ArchiveKey γ) : ArchiveCache γ μ :=
  if (cache.archives.lookup archive.tilesetId).any (fun cached => cached.generation = archive.generation) then
    { cache with archives := cache.archives.erase archive.tilesetId }
  else cache

structure Kept (γ : Type) where
  archives : String → Bool := fun _ => true
  leafs : LeafCacheKey γ → Bool := fun _ => true
  absent : String → Bool := fun _ => true

def evict (kept : Kept γ) : ArchiveCache γ μ where
  archives := cache.archives.retain (fun tilesetId _ => kept.archives tilesetId)
  leafs := cache.leafs.retain (fun key _ => kept.leafs key)
  absent := cache.absent.retain (fun tilesetId _ => kept.absent tilesetId)

/-! ## Lookups -/

variable {cache now}

variable {arch : VersionedArchive γ μ} {t : String} {tid : String} {cached : CachedArchive γ μ}
  {metadata : μ} {kept : Kept γ}

theorem get_eq_some (h : cache.get now tid = some arch) :
    ∃ cached, cache.archives.lookup tid = some cached ∧ now < cached.revalidateAfter ∧
      arch = cached.versioned tid := by
  obtain ⟨cached, hcached, rfl⟩ := map_eq_some_iff.mp h
  obtain ⟨hlook, hfresh⟩ := filter_eq_some_iff.mp hcached
  exact ⟨cached, hlook, of_decide_eq_true hfresh, rfl⟩

theorem get_eq_none (h : cache.get now tid = none)
    (hlook : cache.archives.lookup tid = some cached) : cached.revalidateAfter ≤ now := by
  unfold get at h
  rw [hlook, map_eq_none_iff, filter_eq_none_iff] at h
  have hnot := h cached rfl
  rw [decide_eq_true_eq] at hnot
  exact Nat.not_lt.mp hnot

theorem lookup_modify {f : CachedArchive γ μ → Option (CachedArchive γ μ)}
    (h : (cache.modify tid f).archives.lookup t = some cached) : cache.archives.lookup t = some cached ∨
      (t = tid ∧ ∃ old, cache.archives.lookup t = some old ∧ f old = some cached) := by
  unfold modify at h
  split at h
  case h_1 changed hchanged =>
    obtain ⟨old, hold, hf⟩ := bind_eq_some_iff.mp hchanged
    rw [HashMap.lookup_insert_eq] at h
    split_ifs at h with ht
    · cases h
      subst ht
      exact .inr ⟨rfl, old, hold, hf⟩
    · exact .inl h
  · exact .inl h

theorem leafs_modify (tid : String) (f : CachedArchive γ μ → Option (CachedArchive γ μ)) :
    (cache.modify tid f).leafs = cache.leafs := by
  unfold modify
  split <;> rfl

theorem lookup_defer (h : (cache.deferExpiredRevalidation now tid).archives.lookup t = some cached) :
    cache.archives.lookup t = some cached ∨
      (t = tid ∧ ∃ old time, cache.archives.lookup t = some old ∧ cached = { old with revalidateAfter := time }) := by
  obtain hold | ⟨ht, old, hold, hf⟩ := lookup_modify h
  · exact .inl hold
  · split_ifs at hf
    exact .inr ⟨ht, old, _, hold, (some.inj hf).symm⟩

theorem lookup_putMetadata {arch : ArchiveKey γ}
    (h : (cache.putMetadata arch metadata).archives.lookup t = some cached) :
    cache.archives.lookup t = some cached ∨
      (t = arch.tilesetId ∧ ∃ old, cache.archives.lookup t = some old ∧ old.generation = arch.generation ∧
        cached = { old with metadata := some metadata }) := by
  obtain hold | ⟨ht, old, hold, hf⟩ := lookup_modify h
  · exact .inl hold
  · split_ifs at hf with hgen
    exact .inr ⟨ht, old, hold, hgen, (some.inj hf).symm⟩

theorem lookup_install {interval : ℕ} {boot : Bytes}
    (h : (cache.install now interval arch boot).archives.lookup t = some cached) :
    (t = arch.key.tilesetId ∧ cached =
        ⟨arch.key.generation, arch.archive, cache.keptMetadata arch, boot, now + interval⟩) ∨
      (t ≠ arch.key.tilesetId ∧ cache.archives.lookup t = some cached) := by
  unfold install at h
  rw [HashMap.lookup_insert_eq] at h
  split_ifs at h with ht
  · exact .inl ⟨ht, (some.inj h).symm⟩
  · exact .inr ⟨ht, h⟩

theorem keptMetadata_eq_some (h : cache.keptMetadata arch = some metadata) :
    arch.metadata = some metadata ∨ ∃ cached, cache.archives.lookup arch.key.tilesetId = some cached ∧
      cached.generation = arch.key.generation ∧ cached.metadata = some metadata := by
  cases or_eq_some_iff.mp h with
  | inl hown => exact .inl hown
  | inr hkept =>
    obtain ⟨cached, hcached, hmeta⟩ := bind_eq_some_iff.mp hkept.2
    obtain ⟨hlook, hgen⟩ := filter_eq_some_iff.mp hcached
    exact .inr ⟨cached, hlook, of_decide_eq_true hgen, hmeta⟩

theorem lookup_invalidate {arch : ArchiveKey γ}
    (h : (cache.invalidateGeneration arch).archives.lookup t = some cached) :
    cache.archives.lookup t = some cached := by
  unfold invalidateGeneration at h
  split_ifs at h
  · rw [HashMap.lookup_erase_eq] at h
    split_ifs at h
    exact h
  · exact h

theorem leafs_invalidate (arch : ArchiveKey γ) : (cache.invalidateGeneration arch).leafs = cache.leafs := by
  unfold invalidateGeneration
  split_ifs <;> rfl

theorem lookup_evict
    (h : (cache.evict kept).archives.lookup t = some cached) : cache.archives.lookup t = some cached := by
  unfold evict at h
  rw [HashMap.lookup_retain_eq, filter_eq_some_iff] at h
  exact h.1

theorem leafs_evict {key : LeafCacheKey γ} {dir : Directory}
    (h : (cache.evict kept).leafs.lookup key = some dir) : cache.leafs.lookup key = some dir := by
  unfold evict at h
  rw [HashMap.lookup_retain_eq, filter_eq_some_iff] at h
  exact h.1

end ArchiveCache
end Mappf.Ishikari
