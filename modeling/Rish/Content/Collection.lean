/-
  Rish.Content.Collection — what a collection may remove.

  A blob is protected by a lease that holds it, by a pin or by a root of the collection. Lease numbers
  are 64-bit words that wrap, and a new lease takes its number whether or not a lease still has it.
-/

import Rish.Content.Ingest

namespace Rish.Content

open Lib
open Store (unkept saturatingAdd createLease)

variable {D : Type} [DecidableEq D] {sha : List U8 → D} {cfg : StoreConfig}

/-- A new lease gets a number that no lease has. -/
def FreshLease (event : Event D) (s : System D) : Prop :=
  event = .createLease → s.store.leases.lookup s.store.createLease.1 = none

instance (event : Event D) (s : System D) : Decidable (FreshLease event s) := inferInstanceAs (Decidable (_ → _))

/-! ## What always holds -/

structure Guarded (store : Store D) (handles : List (Handle D)) : Prop where
  books : store.Books
  /-- the store knows what a holder put into its lease -/
  held : ∀ (h : Nat) (handle : Handle D), handles[h]? = some handle → handle.released = false →
    ∃ digests, store.leases.lookup handle.id = some digests ∧ handle.held ⊆ digests
  /-- leases that are still held have their own numbers -/
  apart : ∀ (h h' : Nat) (handle handle' : Handle D), handles[h]? = some handle → handles[h']? = some handle' →
    handle.released = false → handle'.released = false → handle.id = handle'.id → h = h'
  present : ∀ id digests, store.leases.lookup id = some digests → ∀ digest ∈ digests, (store.blobs.lookup digest).isSome

section Guarded

variable {store store' : Store D} {handles : List (Handle D)} {id : U64} {digest : D} {digests : Finset D}

theorem Guarded.of_blobs (hg : Guarded store handles) (hbooks : store'.Books) (hleases : store'.leases = store.leases)
    (hblobs : ∀ id digests, store.leases.lookup id = some digests → ∀ digest ∈ digests,
      (store'.blobs.lookup digest).isSome) : Guarded store' handles :=
  ⟨hbooks, by rw [hleases]; exact hg.held, hg.apart, by rw [hleases]; exact hblobs⟩

theorem Guarded.createLease (hg : Guarded store handles) (hfresh : store.leases.lookup store.createLease.1 = none) :
    Guarded store.createLease.2 (handles ++ [⟨store.createLease.1, false, ∅⟩]) := by
  have hcases : ∀ (h : Nat) (handle : Handle D), (handles ++ [⟨store.createLease.1, false, ∅⟩])[h]? = some handle →
      handles[h]? = some handle ∨ (h = handles.length ∧ handle = ⟨store.createLease.1, false, ∅⟩) := by
    intro h handle hh
    rcases Nat.lt_or_ge h handles.length with hlt | hge
    · rw [List.getElem?_append_left hlt] at hh
      exact .inl hh
    · rw [List.getElem?_append_right hge, List.getElem?_singleton] at hh
      split at hh
      · exact .inr ⟨by omega, (Option.some_inj.mp hh).symm⟩
      · cases hh
  -- an old lease has a number that the store knows, so not the new one
  have hold : ∀ (h : Nat) (handle : Handle D), handles[h]? = some handle → handle.released = false →
      handle.id ≠ store.createLease.1 := by
    intro h handle hh hlive heq
    obtain ⟨digests, hlookup, -⟩ := hg.held h handle hh hlive
    rw [heq, hfresh] at hlookup
    cases hlookup
  have hleases : ∀ number, store.createLease.2.leases.lookup number =
      if number = store.createLease.1 then some ∅ else store.leases.lookup number :=
    fun number => Table.lookup_insert_eq _ _
  refine ⟨hg.books.createLease, ?_, ?_, ?_⟩
  · intro h handle hh hlive
    rcases hcases h handle hh with hh | ⟨-, rfl⟩
    · rw [hleases, if_neg (hold h handle hh hlive)]
      exact hg.held h handle hh hlive
    · exact ⟨∅, by rw [hleases, if_pos rfl], Finset.empty_subset _⟩
  · intro h h' handle handle' hh hh' hlive hlive' heq
    rcases hcases h handle hh with hh | ⟨hat, rfl⟩ <;> rcases hcases h' handle' hh' with hh' | ⟨hat', rfl⟩
    · exact hg.apart h h' handle handle' hh hh' hlive hlive' heq
    · exact absurd heq (hold h handle hh hlive)
    · exact absurd heq.symm (hold h' handle' hh' hlive')
    · rw [hat, hat']
  · intro number digests hlookup digest hmem
    rw [hleases] at hlookup
    split at hlookup
    · cases hlookup
      cases hmem
    · exact hg.present number digests hlookup digest hmem

omit [DecidableEq D] in
theorem getElem?_modify_cases {f} {h h' : Nat} {handle : Handle D}
    (hh : (handles.modify h f)[h']? = some handle) :
    (h' = h ∧ ∃ was, handles[h']? = some was ∧ handle = f was) ∨ (h' ≠ h ∧ handles[h']? = some handle) := by
  rw [List.getElem?_modify, Option.map_eq_map] at hh
  obtain ⟨was, hwas, hf⟩ := Option.map_eq_some_iff.mp hh
  by_cases heq : h = h'
  · rw [if_pos heq] at hf
    exact .inl ⟨heq.symm, was, hwas, hf.symm⟩
  · rw [if_neg heq] at hf
    exact .inr ⟨fun h => heq h.symm, hf ▸ hwas⟩

theorem apart_modify (hg : Guarded store handles) {f} {at' h h' : Nat} {handle handle' : Handle D}
    (hh : (handles.modify at' f)[h]? = some handle) (hh' : (handles.modify at' f)[h']? = some handle')
    (hid : ∀ handle, (f handle).id = handle.id)
    (hreleased : ∀ handle, (f handle).released = false → handle.released = false) (hlive : handle.released = false)
    (hlive' : handle'.released = false) (heq : handle.id = handle'.id) : h = h' := by
  rcases getElem?_modify_cases hh with ⟨-, was, hwas, rfl⟩ | ⟨-, hwas⟩ <;>
    rcases getElem?_modify_cases hh' with ⟨-, was', hwas', rfl⟩ | ⟨-, hwas'⟩
  · rw [hid, hid] at heq
    exact hg.apart h h' _ _ hwas hwas' (hreleased _ hlive) (hreleased _ hlive') heq
  · rw [hid] at heq
    exact hg.apart h h' _ _ hwas hwas' (hreleased _ hlive) hlive' heq
  · rw [hid] at heq
    exact hg.apart h h' _ _ hwas hwas' hlive (hreleased _ hlive') heq
  · exact hg.apart h h' _ _ hwas hwas' hlive hlive' heq

def Store.putInto (store : Store D) (id : U64) (digests : Finset D) (digest : D) : Store D :=
  { store with leases := store.leases.insert id (insert digest digests) }

section

variable (hg : Guarded store handles)
include hg

theorem Guarded.put (at') (digest : D) (hlookup : store.leases.lookup id = some digests)
    (hblob : (store.blobs.lookup digest).isSome)
    (hid : ∀ handle, handles[at']? = some handle → handle.id = id) :
    Guarded (store.putInto id digests digest) (hold handles (some at') digest) := by
  have hleases : ∀ number, (store.putInto id digests digest).leases.lookup number =
      if number = id then some (insert digest digests) else store.leases.lookup number :=
    fun number => Table.lookup_insert_eq _ _
  -- a lease the store knew, it knows still, with at least what was in it
  have hgrows : ∀ number known, store.leases.lookup number = some known →
      ∃ known', (store.putInto id digests digest).leases.lookup number = some known' ∧ known ⊆ known' := by
    intro number known hknown
    rw [hleases]
    by_cases heq : number = id
    · rw [if_pos heq]
      rw [heq, hlookup] at hknown
      cases hknown
      exact ⟨_, rfl, Finset.subset_insert _ _⟩
    · rw [if_neg heq]
      exact ⟨known, hknown, Finset.Subset.refl _⟩
  refine ⟨hg.books.of_eq rfl rfl rfl, ?_, ?_, ?_⟩
  · intro h handle hh hlive
    rcases getElem?_modify_cases hh with ⟨rfl, was, hwas, rfl⟩ | ⟨hne, hwas⟩
    · obtain ⟨known, hknown, hsub⟩ := hg.held h was hwas hlive
      refine ⟨insert digest digests, by rw [hleases, if_pos (hid was hwas)], ?_⟩
      rw [hid was hwas, hlookup] at hknown
      cases hknown
      exact Finset.insert_subset_insert _ hsub
    · obtain ⟨known, hknown, hsub⟩ := hg.held h handle hwas hlive
      obtain ⟨known', hknown', hsub'⟩ := hgrows _ known hknown
      exact ⟨known', hknown', hsub.trans hsub'⟩
  · intro h h' handle handle' hh hh' hlive hlive' heq
    exact apart_modify hg hh hh' (fun _ => rfl) (fun _ hr => hr) hlive hlive' heq
  · intro number known hknown d hd
    rw [hleases] at hknown
    split at hknown
    · cases hknown
      rcases Finset.mem_insert.mp hd with rfl | hd
      · exact hblob
      · exact hg.present id digests hlookup d hd
    · exact hg.present number known hknown d hd

theorem Guarded.take (at') (digest : D) (hlookup : store.leases.lookup id = some digests)
    (hid : ∀ handle, handles[at']? = some handle → handle.released = false ∧ handle.id = id) {live}
    (hlive : handles[at']? = some live) :
    Guarded { store with leases := store.leases.insert id (digests.erase digest) }
      (handles.modify at' fun handle => { handle with held := handle.held.erase digest }) := by
  have hleases : ∀ number, (store.leases.insert id (digests.erase digest)).lookup number =
      if number = id then some (digests.erase digest) else store.leases.lookup number :=
    fun number => Table.lookup_insert_eq _ _
  refine ⟨hg.books.of_eq rfl rfl rfl, ?_, ?_, ?_⟩
  · intro h handle hh hlives
    rcases getElem?_modify_cases hh with ⟨rfl, was, hwas, rfl⟩ | ⟨hne, hwas⟩
    · obtain ⟨known, hknown, hsub⟩ := hg.held h was hwas hlives
      refine ⟨digests.erase digest, by rw [hleases, if_pos (hid was hwas).2], ?_⟩
      rw [(hid was hwas).2, hlookup] at hknown
      cases hknown
      exact Finset.erase_subset_erase _ hsub
    · obtain ⟨known, hknown, hsub⟩ := hg.held h handle hwas hlives
      have hother : handle.id ≠ id := fun heq =>
        hne (hg.apart h at' handle live hwas hlive hlives (hid live hlive).1 (heq.trans (hid live hlive).2.symm))
      exact ⟨known, by rw [hleases, if_neg hother]; exact hknown, hsub⟩
  · intro h h' handle handle' hh hh' hl hl' heq
    exact apart_modify hg hh hh' (fun _ => rfl) (fun _ hr => hr) hl hl' heq
  · intro number known hknown d hd
    rw [hleases] at hknown
    split at hknown
    · cases hknown
      exact hg.present id digests hlookup d (Finset.mem_of_mem_erase hd)
    · exact hg.present number known hknown d hd

theorem Guarded.release {at' live} (hlive : handles[at']? = some live)
    (hheld : live.released = false) :
    Guarded (store.releaseLease live.id) (handles.modify at' fun handle => { handle with released := true }) := by
  have hleases : ∀ number, (store.releaseLease live.id).leases.lookup number =
      if number = live.id then none else store.leases.lookup number :=
    fun number => Table.lookup_erase_eq _ _
  refine ⟨hg.books.releaseLease, ?_, ?_, ?_⟩
  · intro h handle hh hl
    rcases getElem?_modify_cases hh with ⟨rfl, was, hwas, rfl⟩ | ⟨hne, hwas⟩
    · cases hl
    · have hother : handle.id ≠ live.id := fun heq => hne (hg.apart h at' handle live hwas hlive hl hheld heq)
      rw [hleases, if_neg hother]
      exact hg.held h handle hwas hl
  · intro h h' handle handle' hh hh' hl hl' heq
    exact apart_modify hg hh hh' (fun _ => rfl) (fun _ hr => by cases hr) hl hl' heq
  · intro number known hknown d hd
    rw [hleases] at hknown
    split at hknown
    · cases hknown
    · exact hg.present number known hknown d hd

end

/-- The lease an ingest works for is that of the holder that started it. -/
def OriginOf (handles : List (Handle D)) (handle : Option Nat) (lease : Option U64) : Prop :=
  match handle with
  | none => lease = none
  | some h => ∃ holder, handles[h]? = some holder ∧ lease = some holder.id

theorem Guarded.leaseCommitted (hg : Guarded store handles) {lease handle}
    (hblob : (store.blobs.lookup digest).isSome)
    (hleased : lease.any (fun id => (store.leases.lookup id).isNone) = false)
    (horigin : OriginOf handles handle lease) :
    Guarded (store.leaseCommitted lease digest).2 (hold handles handle digest) := by
  cases handle with
  | none =>
    cases horigin
    exact hg
  | some h =>
    obtain ⟨holder, hholder, rfl⟩ := horigin
    cases hlookup : store.leases.lookup holder.id with
    | none => simp [hlookup] at hleased
    | some digests =>
      have hput := hg.put h digest hlookup hblob fun handle hh => by
        rw [hholder] at hh
        cases hh
        rfl
      simp only [Store.leaseCommitted, hlookup]
      exact hput

theorem Guarded.commit (hg : Guarded store handles) (sha) (cfg : StoreConfig)
    (faults temporary descriptor) (lease : Option U64)
    (handle : Option Nat)
    (hcontent : ∀ bytes, temporary = some bytes → bytes.length = descriptor.size)
    (horigin : OriginOf handles handle lease) :
    Guarded (store.commitTemporary sha cfg faults temporary descriptor lease).store
      (match (store.commitTemporary sha cfg faults temporary descriptor lease).result with
        | .error _ => handles
        | .ok _ => hold handles handle descriptor.digest) := by
  have hcases := Store.commitTemporary_cases sha cfg store faults temporary descriptor lease
  generalize store.commitTemporary sha cfg faults temporary descriptor lease = c at hcases
  have hfiled : ∀ bytes, store.blobs.lookup descriptor.digest = none → temporary = some bytes →
      ((store.committedBlobs.lookup descriptor.digest).isNone → store.committedBytes + descriptor.size ≤ U64_MAX) →
      Guarded (store.file descriptor bytes) handles ∧
        ((store.file descriptor bytes).blobs.lookup descriptor.digest).isSome := by
    intro bytes hblob htemporary hroom
    have hlookup : ∀ d, (store.file descriptor bytes).blobs.lookup d =
        if d = descriptor.digest then some bytes else store.blobs.lookup d := fun d => Table.lookup_insert_eq _ _
    refine ⟨hg.of_blobs (hg.books.file hblob (hcontent bytes htemporary)
      (hroom (by rw [hg.books.sizes, hblob]; rfl))) rfl
      fun id digests hknown d hd => ?_, by rw [hlookup, if_pos rfl]; rfl⟩
    rw [hlookup]
    split
    · rfl
    · exact hg.present id digests hknown d hd
  cases hcases with
  | refused e => exact hg
  | found bytes blob size digest leased =>
    have hobserved : Guarded (store.observeCommittedBlob descriptor) handles :=
      hg.of_blobs (hg.books.observe_present blob size).2 rfl hg.present
    exact hobserved.leaseCommitted (by rw [Store.observeCommittedBlob_blobs, blob]; rfl) leased horigin
  | unsynced bytes blob content room => exact (hfiled bytes blob content room).1
  | filed bytes blob content room leased =>
    exact (hfiled bytes blob content room).1.leaseCommitted (hfiled bytes blob content room).2 leased horigin

/-! ### Collections -/

theorem marked_of_leased {roots} (hlookup : store.leases.lookup id = some digests) (hmem : digest ∈ digests) :
    store.marked roots digest = true := by
  have hentry := Table.mem_entries.mpr hlookup
  simp only [Store.marked, Bool.or_eq_true, List.any_eq_true, decide_eq_true_eq]
  exact .inr ⟨_, hentry, hmem⟩

omit [DecidableEq D] in
theorem mem_unkept {keep} {es : List (Sigma fun _ : D => List U8)} :
    digest ∈ unkept keep es ↔ (∃ bytes, (⟨digest, bytes⟩ : Sigma fun _ : D => List U8) ∈ es) ∧ keep digest = false := by
  simp only [unkept, List.mem_map, List.mem_filter, Bool.not_eq_true']
  constructor
  · rintro ⟨⟨d, bytes⟩, ⟨hmem, hkeep⟩, rfl⟩
    exact ⟨⟨bytes, hmem⟩, hkeep⟩
  · rintro ⟨⟨bytes, hmem⟩, hkeep⟩
    exact ⟨⟨digest, bytes⟩, ⟨hmem, hkeep⟩, rfl⟩

/-- The part of the directory a collection goes through. -/
def visited (store : Store D) : Option Nat → List (Sigma fun _ : D => List U8)
  | none => store.blobs.entries
  | some n => store.blobs.entries.take n

theorem collect_store (store : Store D) (roots : List D) (dryRun : Bool) (stop : Option Nat) :
    (store.garbageCollectWithRoots roots dryRun stop).2 =
      if dryRun then store else store.removeBlobs (unkept (store.marked roots) (visited store stop)) := by
  cases stop <;> exact Store.sweep_store _ _ _ _ _

theorem collect_lookup (store : Store D) (roots : List D) (stop : Option Nat) (digest : D) :
    (store.garbageCollectWithRoots roots false stop).2.blobs.lookup digest =
      if digest ∈ unkept (store.marked roots) (visited store stop) then none else store.blobs.lookup digest := by
  rw [collect_store, if_neg Bool.false_ne_true, (Store.removeBlobs_fields _).1, Table.lookup_eraseAll]

theorem Guarded.collect (hg : Guarded store handles) (roots : List D) (dryRun : Bool) (stop : Option Nat) :
    Guarded (store.garbageCollectWithRoots roots dryRun stop).2 handles := by
  cases dryRun with
  | true =>
    rw [collect_store, if_pos rfl]
    exact hg
  | false =>
    have hleases : (store.garbageCollectWithRoots roots false stop).2.leases = store.leases := by
      rw [collect_store, if_neg Bool.false_ne_true]
      exact (Store.removeBlobs_fields _).2.2.1
    refine hg.of_blobs (hg.books.collect roots false stop) hleases fun id digests hlookup digest hmem => ?_
    rw [collect_lookup, if_neg]
    · exact hg.present id digests hlookup digest hmem
    · intro hunkept
      have hkeep := (mem_unkept.mp hunkept).2
      rw [marked_of_leased hlookup hmem] at hkeep
      cases hkeep

end Guarded

/-! ## Runs -/

structure Tended (sha : List U8 → D) (initial : Table D (List U8)) (s : System D) : Prop where
  sound : Sound sha initial s
  guarded : Guarded s.store s.handles
  origin : ∀ (k : Nat) (i : Ingest D), s.ingests[k]? = some i → i.stage.result = none →
    OriginOf s.handles i.handle i.lease

variable {s : System D} {i : Ingest D} {k : Nat} {initial : Table D (List U8)} {handles handles' : List (Handle D)}

def KeepsNumbers (handles handles' : List (Handle D)) : Prop :=
  ∀ (h : Nat) (handle : Handle D), handles[h]? = some handle → ∃ handle', handles'[h]? = some handle' ∧
    handle'.id = handle.id

omit [DecidableEq D] in
theorem keepsNumbers_refl (handles : List (Handle D)) : KeepsNumbers handles handles :=
  fun _ handle h => ⟨handle, h, rfl⟩

omit [DecidableEq D] in
theorem keepsNumbers_modify (handles : List (Handle D)) (at' : Nat) {f : Handle D → Handle D}
    (hid : ∀ handle, (f handle).id = handle.id) : KeepsNumbers handles (handles.modify at' f) := by
  intro h handle hh
  rw [List.getElem?_modify, hh]
  refine ⟨_, rfl, ?_⟩
  split
  · exact hid handle
  · rfl

theorem keepsNumbers_hold (handles : List (Handle D)) (handle : Option Nat) (digest : D) :
    KeepsNumbers handles (hold handles handle digest) := by
  cases handle with
  | none => exact keepsNumbers_refl handles
  | some h => exact keepsNumbers_modify handles h fun _ => rfl

omit [DecidableEq D] in
theorem OriginOf.of_keeps {handle lease} (h : OriginOf handles handle lease)
    (hkeeps : KeepsNumbers handles handles') : OriginOf handles' handle lease := by
  cases handle with
  | none => exact h
  | some at' =>
    obtain ⟨holder, hholder, hlease⟩ := h
    obtain ⟨holder', hholder', hid⟩ := hkeeps at' holder hholder
    exact ⟨holder', hholder', by rw [hid, hlease]⟩

variable (sha cfg i s) in
theorem advance_record (event) : (advance sha cfg event i s).2.handle = i.handle ∧
    (advance sha cfg event i s).2.lease = i.lease := by
  unfold advance
  split
  · dsimp only
    split
    · exact ⟨rfl, rfl⟩
    · split <;> exact ⟨rfl, rfl⟩
  · unfold readChunk
    dsimp only
    split
    · split <;> exact ⟨rfl, rfl⟩
    · split
      · exact ⟨rfl, rfl⟩
      · split
        · split <;> exact ⟨rfl, rfl⟩
        · split <;> exact ⟨rfl, rfl⟩
  · exact ⟨rfl, rfl⟩
  · exact ⟨rfl, rfl⟩
  · unfold commitChecked
    dsimp only
    split <;> exact ⟨rfl, rfl⟩
  · exact ⟨rfl, rfl⟩
  · exact ⟨rfl, rfl⟩

variable (cfg) in
theorem advance_guarded (hs : Tended sha initial s) (hi : s.ingests[k]? = some i) (event : IngestEvent) :
    Guarded (advance sha cfg event i s).1.store (advance sha cfg event i s).1.handles ∧
      KeepsNumbers s.handles (advance sha cfg event i s).1.handles := by
  have hsame := keepsNumbers_refl s.handles
  have hread : ∀ file chunk, (readChunk sha cfg file chunk i s).1.handles = s.handles := by
    intro file chunk
    unfold readChunk
    dsimp only
    split
    · split <;> rfl
    · split
      · rfl
      · split
        · split <;> rfl
        · split <;> rfl
  unfold advance
  split
  · exact ⟨hs.guarded, hsame⟩
  · rw [(readChunk_frame _ _).1, hread]
    exact ⟨hs.guarded, hsame⟩
  · exact ⟨hs.guarded, hsame⟩
  · exact ⟨hs.guarded, hsame⟩
  · rename_i file descriptor faults hstage
    have hvalid := hs.sound.valid k i hi
    simp only [Valid, hstage] at hvalid
    have hcommit := hs.guarded.commit sha cfg faults (s.temporary.lookup file) descriptor i.lease i.handle
      (fun bytes hbytes => by
        rw [hvalid.1] at hbytes
        cases hbytes
        rw [hvalid.2]
        rfl)
      (hs.origin k i hi (by rw [hstage]; rfl))
    unfold commitChecked
    dsimp only
    revert hcommit
    cases (s.store.commitTemporary sha cfg faults (s.temporary.lookup file) descriptor i.lease).result with
    | error e => exact fun hcommit => ⟨hcommit, hsame⟩
    | ok _ => exact fun hcommit => ⟨hcommit, keepsNumbers_hold _ _ _⟩
  · exact ⟨hs.guarded, hsame⟩
  · exact ⟨hs.guarded, hsame⟩

omit [DecidableEq D] in
theorem liveHandle_eq_some {h live} (hlive : liveHandle s h = some live) :
    s.handles[h]? = some live ∧ live.released = false := by
  obtain ⟨hh, hreleased⟩ := Option.filter_eq_some_iff.mp hlive
  exact ⟨hh, by simpa using hreleased⟩

section

variable (hs : Tended sha initial s)
include hs

theorem Tended.call {event} (hingests : (next sha cfg event s).ingests = s.ingests)
    (hguarded : Guarded (next sha cfg event s).store (next sha cfg event s).handles)
    (hnumbers : KeepsNumbers s.handles (next sha cfg event s).handles) : Tended sha initial (next sha cfg event s) :=
  ⟨hs.sound.next event, hguarded, fun k i hi hresult => by
    rw [hingests] at hi
    exact (hs.origin k i hi hresult).of_keeps hnumbers⟩

theorem Tended.startIngest (expected) (handle : Option Nat) :
    Tended sha initial (next sha cfg (.ingest expected handle) s) := by
  have hframe : (Content.startIngest cfg expected handle s).store = s.store ∧
      (Content.startIngest cfg expected handle s).handles = s.handles ∧
      ∃ i, (Content.startIngest cfg expected handle s).ingests = s.ingests ++ [i] ∧
        (i.stage.result = none → OriginOf s.handles i.handle i.lease) := by
    unfold Content.startIngest
    have hbegun : ∀ lease, OriginOf s.handles handle lease →
        ∀ i, i = (match accepts cfg s.store expected with
          | .error e => (⟨expected, handle, lease, [], .finished none (.error e)⟩ : Ingest D)
          | .ok _ => ⟨expected, handle, lease, [], .admitted⟩) → OriginOf s.handles i.handle i.lease := by
      rintro lease h i rfl
      cases accepts cfg s.store expected <;> exact h
    cases handle with
    | none => exact ⟨rfl, rfl, _, rfl, fun _ => hbegun none rfl _ rfl⟩
    | some h =>
      dsimp only
      cases hlive : liveHandle s h with
      | none => exact ⟨rfl, rfl, _, rfl, fun hresult => by cases hresult⟩
      | some live =>
        exact ⟨rfl, rfl, _, rfl, fun _ => hbegun (some live.id) ⟨live, (liveHandle_eq_some hlive).1, rfl⟩ _ rfl⟩
  obtain ⟨hstore, hhandles, new, hingests, hnew⟩ := hframe
  refine ⟨hs.sound.next _, ?_, fun k i hi hresult => ?_⟩
  · show Guarded (Content.startIngest cfg expected handle s).store (Content.startIngest cfg expected handle s).handles
    rw [hstore, hhandles]
    exact hs.guarded
  · show OriginOf (Content.startIngest cfg expected handle s).handles i.handle i.lease
    rw [hhandles]
    have hi' : (s.ingests ++ [new])[k]? = some i := hingests ▸ hi
    rcases Nat.lt_or_ge k s.ingests.length with hk | hk
    · rw [List.getElem?_append_left hk] at hi'
      exact hs.origin k i hi' hresult
    · rw [List.getElem?_append_right hk] at hi'
      obtain rfl : i = new := by simpa using List.mem_of_getElem? hi'
      exact hnew hresult

theorem Tended.step (k event) : Tended sha initial (next sha cfg (.step k event) s) := by
  cases hi : s.ingests[k]? with
  | none =>
    have hidle : next sha cfg (.step k event) s = s := by
      unfold next
      dsimp only
      rw [hi]
    rw [hidle]
    exact hs
  | some i =>
    obtain ⟨hguarded, hnumbers⟩ := advance_guarded cfg hs hi event
    obtain ⟨hstore, hingests, hhandles⟩ := next_step sha cfg hi event
    refine ⟨hs.sound.next _, by rw [hstore, hhandles]; exact hguarded, fun k' j hj hresult => ?_⟩
    rw [hhandles]
    have hj' : (s.ingests.set k (advance sha cfg event i s).2)[k']? = some j := hingests ▸ hj
    rw [List.getElem?_set] at hj'
    split at hj'
    · split at hj'
      · cases hj'
        -- the ingest that moved: it had no result before either
        have hbefore : i.stage.result = none := by
          cases hr : i.stage.result with
          | none => rfl
          | some r =>
            rw [advance_result hr event] at hresult
            cases hresult
        have horigin := (hs.origin k i hi hbefore).of_keeps hnumbers
        obtain ⟨hhandle, hlease⟩ := advance_record sha cfg s i event
        rw [hhandle, hlease]
        exact horigin
      · cases hj'
    · exact (hs.origin k' j hj' hresult).of_keeps hnumbers

theorem Tended.next (event : Event D) (hfresh : FreshLease event s) : Tended sha initial (next sha cfg event s) := by
  cases event with
  | ingest expected handle => exact hs.startIngest expected handle
  | step k event => exact hs.step k event
  | createLease =>
    refine hs.call rfl (hs.guarded.createLease (hfresh rfl)) fun h handle hh => ⟨handle, ?_, rfl⟩
    have hlt : h < s.handles.length := (List.getElem?_eq_some_iff.mp hh).1
    exact (List.getElem?_append_left hlt).trans hh
  | add h digest =>
    cases hlive : liveHandle s h with
    | none =>
      have hidle : Content.next sha cfg (.add h digest) s = s := by simp only [Content.next, hlive]
      rw [hidle]
      exact hs
    | some live =>
      obtain ⟨hh, hheld⟩ := liveHandle_eq_some hlive
      cases hblob : s.store.blobs.lookup digest with
      | none =>
        have hidle : Content.next sha cfg (.add h digest) s = s := by
          simp only [Content.next, hlive, Store.addToLease, hblob]
        rw [hidle]
        exact hs
      | some bytes =>
        cases hlookup : s.store.leases.lookup live.id with
        | none =>
          have hidle : Content.next sha cfg (.add h digest) s = s := by
            simp only [Content.next, hlive, Store.addToLease, hblob, hlookup]
          rw [hidle]
          exact hs
        | some digests =>
          have hnext : Content.next sha cfg (.add h digest) s =
              { s with
                store := s.store.putInto live.id digests digest, handles := hold s.handles (some h) digest } := by
            simp only [Content.next, hlive, Store.addToLease, hblob, hlookup]
            rfl
          have hput := hs.guarded.put h digest hlookup (by rw [hblob]; rfl) fun handle hhandle => by
            rw [hh] at hhandle
            cases hhandle
            rfl
          refine hs.call ?_ ?_ ?_ <;> rw [hnext]
          · exact hput
          · exact keepsNumbers_hold s.handles (some h) digest
  | remove h digest =>
    cases hlive : liveHandle s h with
    | none =>
      have hidle : Content.next sha cfg (.remove h digest) s = s := by simp only [Content.next, hlive]
      rw [hidle]
      exact hs
    | some live =>
      obtain ⟨hh, hheld⟩ := liveHandle_eq_some hlive
      obtain ⟨digests, hlookup, -⟩ := hs.guarded.held h live hh hheld
      have htake := hs.guarded.take h digest hlookup (fun handle hhandle => by
        rw [hh] at hhandle
        cases hhandle
        exact ⟨hheld, rfl⟩) hh
      refine hs.call ?_ ?_ ?_ <;> simp only [Content.next, hlive, Store.removeFromLease, hlookup]
      · exact htake
      · exact keepsNumbers_modify _ _ fun _ => rfl
  | release h =>
    cases hlive : liveHandle s h with
    | none =>
      have hidle : Content.next sha cfg (.release h) s = s := by simp only [Content.next, hlive]
      rw [hidle]
      exact hs
    | some live =>
      obtain ⟨hh, hheld⟩ := liveHandle_eq_some hlive
      refine hs.call ?_ ?_ ?_ <;> simp only [Content.next, hlive]
      · exact hs.guarded.release hh hheld
      · exact keepsNumbers_modify _ _ fun _ => rfl
  | pin name digest =>
    have hleases : (s.store.pin name digest).2.leases = s.store.leases := by
      unfold Store.pin
      split
      · rfl
      · split
        · rfl
        · dsimp only
          split <;> rfl
    refine hs.call rfl (hs.guarded.of_blobs hs.guarded.books.pin hleases fun id digests hlookup d hd => ?_)
      (keepsNumbers_refl _)
    show ((s.store.pin name digest).2.blobs.lookup d).isSome
    rw [Store.pin_blobs]
    exact hs.guarded.present id digests hlookup d hd
  | unpin name digest =>
    have hleases : (s.store.unpin name digest).2.leases = s.store.leases := by
      unfold Store.unpin
      split <;> rfl
    refine hs.call rfl (hs.guarded.of_blobs hs.guarded.books.unpin hleases fun id digests hlookup d hd => ?_)
      (keepsNumbers_refl _)
    show ((s.store.unpin name digest).2.blobs.lookup d).isSome
    rw [Store.unpin_blobs]
    exact hs.guarded.present id digests hlookup d hd
  | collect roots dryRun stop => exact hs.call rfl (hs.guarded.collect roots dryRun stop) (keepsNumbers_refl _)

end

variable {store : Store D}

theorem start_tended {pins} (hopen : Store.open initial pins = some store)
    (temporary) : Tended sha initial (System.start store temporary) := by
  obtain ⟨hbooks, hblobs, -, hleases⟩ := Store.open_books hopen
  refine ⟨start_sound (fun digest bytes h => .inr (hblobs ▸ h)) hbooks temporary, ⟨hbooks, ?_, ?_, ?_⟩, ?_⟩
  · intro h handle hh
    simp [System.start] at hh
  · intro h h' handle handle' hh
    simp [System.start] at hh
  · intro id digests hlookup
    have hnone : store.leases.lookup id = none := by rw [hleases]; rfl
    exact absurd (hnone.symm.trans hlookup) (by simp)
  · intro k i hi
    simp [System.start] at hi

/-! ## What a blob is lost to -/

variable {digest : D} {bytes : List U8}

theorem commit_lookup {faults temporary}
    {descriptor} {lease : Option U64}
    (h : store.blobs.lookup digest = some bytes) :
    (store.commitTemporary sha cfg faults temporary descriptor lease).store.blobs.lookup digest = some bytes := by
  have hcases := Store.commitTemporary_cases sha cfg store faults temporary descriptor lease
  generalize store.commitTemporary sha cfg faults temporary descriptor lease = c at hcases
  have hfiled : ∀ content, store.blobs.lookup descriptor.digest = none →
      (store.file descriptor content).blobs.lookup digest = some bytes := by
    intro content hnone
    have hne : digest ≠ descriptor.digest := fun heq => by
      rw [heq, hnone] at h
      cases h
    exact (AList.lookup_insert_ne hne).trans h
  cases hcases with
  | refused e => exact h
  | found content blob size digest leased =>
    rw [Store.leaseCommitted_blobs]
    exact h
  | unsynced content blob _ room => exact hfiled content blob
  | filed content blob _ room leased =>
    rw [Store.leaseCommitted_blobs]
    exact hfiled content blob

theorem next_lookup (h : s.store.blobs.lookup digest = some bytes) (event : Event D) :
    (next sha cfg event s).store.blobs.lookup digest = some bytes ∨
      ∃ roots stop, event = .collect roots false stop ∧ s.store.marked roots digest = false := by
  cases event with
  | ingest expected handle =>
    refine .inl ?_
    unfold next startIngest
    dsimp only
    split
    · exact h
    · split <;> exact h
  | step k event =>
    refine .inl ?_
    cases hi : s.ingests[k]? with
    | none =>
      unfold next
      dsimp only
      rw [hi]
      exact h
    | some i =>
      rw [(next_step sha cfg hi event).1]
      unfold advance
      split
      · exact h
      · rw [(readChunk_frame _ _).1]
        exact h
      · exact h
      · exact h
      · unfold commitChecked
        dsimp only
        split <;> exact commit_lookup h
      · exact h
      · exact h
  | createLease => exact .inl h
  | add h' d =>
    refine .inl ?_
    unfold next
    dsimp only
    split
    · exact h
    · rename_i live _
      have hblobs : (s.store.addToLease live.id d).2.blobs = s.store.blobs := Store.addToLease_blobs
      revert hblobs
      rcases s.store.addToLease live.id d with ⟨_ | _, store⟩ <;> exact fun hblobs => by rw [← h, ← hblobs]
  | remove h' d =>
    refine .inl ?_
    unfold next
    dsimp only
    split
    · exact h
    · rename_i live _
      have hblobs : (s.store.removeFromLease live.id d).2.blobs = s.store.blobs := Store.removeFromLease_blobs
      revert hblobs
      rcases s.store.removeFromLease live.id d with ⟨_ | _, store⟩ <;> exact fun hblobs => by rw [← h, ← hblobs]
  | release h' =>
    refine .inl ?_
    unfold next
    dsimp only
    split <;> exact h
  | pin name d => exact .inl (by rw [← h]; exact congrArg (AList.lookup digest) Store.pin_blobs)
  | unpin name d => exact .inl (by rw [← h]; exact congrArg (AList.lookup digest) Store.unpin_blobs)
  | collect roots dryRun stop =>
    cases dryRun with
    | true =>
      refine .inl ?_
      show (s.store.garbageCollectWithRoots roots true stop).2.blobs.lookup digest = some bytes
      rw [collect_store, if_pos rfl]
      exact h
    | false =>
      cases hmarked : s.store.marked roots digest with
      | false => exact .inr ⟨roots, stop, rfl, hmarked⟩
      | true =>
        refine .inl ?_
        show (s.store.garbageCollectWithRoots roots false stop).2.blobs.lookup digest = some bytes
        rw [collect_lookup, if_neg, h]
        intro hunkept
        have hkeep := (mem_unkept.mp hunkept).2
        rw [hmarked] at hkeep
        cases hkeep

/-! ## Collections -/

/-- A root of the collection, pinned, or in a lease. -/
def Protected (store : Store D) (roots : List D) (digest : D) : Prop :=
  digest ∈ roots ∨ (∃ name, (name, digest) ∈ store.pins) ∨
    ∃ id digests, store.leases.lookup id = some digests ∧ digest ∈ digests

theorem marked_iff (store roots) (digest : D) :
    store.marked roots digest = true ↔ Protected store roots digest := by
  simp only [Store.marked, Bool.or_eq_true, List.any_eq_true, decide_eq_true_eq, or_assoc]
  refine or_congr Iff.rfl (or_congr ?_ ?_)
  · constructor
    · rintro ⟨⟨name, d⟩, hmem, rfl⟩
      exact ⟨name, hmem⟩
    · rintro ⟨name, hmem⟩
      exact ⟨(name, digest), hmem, rfl⟩
  · constructor
    · rintro ⟨⟨id, digests⟩, hmem, hdigest⟩
      exact ⟨id, digests, Table.mem_entries.mp hmem, hdigest⟩
    · rintro ⟨id, digests, hlookup, hdigest⟩
      exact ⟨⟨id, digests⟩, Table.mem_entries.mpr hlookup, hdigest⟩

theorem collect_unprotected {roots} (h : ¬ Protected store roots digest) :
    (store.garbageCollectWithRoots roots false none).2.blobs.lookup digest = none := by
  rw [collect_lookup]
  split
  · rfl
  · rename_i hmem
    cases hlookup : store.blobs.lookup digest with
    | none => rfl
    | some bytes =>
      have hmarked : store.marked roots digest = false := by
        rw [← Bool.not_eq_true, marked_iff]
        exact h
      exact absurd (mem_unkept.mpr ⟨⟨bytes, Table.mem_entries.mpr hlookup⟩, hmarked⟩) hmem

/-- The files a collection removes. -/
def unprotected (store : Store D) (roots : List D) : List (Sigma fun _ : D => List U8) :=
  store.blobs.entries.filter fun e => !store.marked roots e.1

/-- What a completed collection does, and what it reports. -/
structure Collects (store : Store D) (roots : List D) : Prop where
  keeps : ∀ digest, Protected store roots digest →
    (store.garbageCollectWithRoots roots false none).2.blobs.lookup digest = store.blobs.lookup digest
  removes : ∀ digest, ¬ Protected store roots digest →
    (store.garbageCollectWithRoots roots false none).2.blobs.lookup digest = none
  accounts : store.committedBytes =
    ((unprotected store roots).map (·.2.length)).sum + (store.garbageCollectWithRoots roots false none).2.committedBytes
  reports : ∃ report, (store.garbageCollectWithRoots roots false none).1 = .ok report ∧
    report.keptBlobs = min (store.blobs.entries.filter (store.marked roots ·.1)).length U64_MAX ∧
    report.removedBlobs = min (unprotected store roots).length U64_MAX ∧
    report.reclaimedBytes = ((unprotected store roots).map (·.2.length)).sum
  dry : store.garbageCollectWithRoots roots true none = ((store.garbageCollectWithRoots roots false none).1, store)

theorem Store.Books.collects (h : store.Books) (roots : List D) : Collects store roots := by
  have hsum : store.committedBytes = ((unprotected store roots).map (·.2.length)).sum +
      (store.garbageCollectWithRoots roots false none).2.committedBytes := by
    have hnodup : ((unprotected store roots).map (·.1)).Nodup :=
      (List.filter_sublist.map _).nodup store.blobs.nodupKeys
    have hmem : ∀ e ∈ unprotected store roots, store.blobs.lookup e.1 = some e.2 :=
      fun e he => Table.mem_entries.mp (List.mem_of_mem_filter he)
    have htotal := Table.total_eraseAll List.length hmem hnodup
    have hafter : (store.garbageCollectWithRoots roots false none).2.blobs =
        Table.eraseAll ((unprotected store roots).map (·.1)) store.blobs := by
      rw [collect_store, if_neg Bool.false_ne_true, (Store.removeBlobs_fields _).1]
      rfl
    rw [(h.collect roots false none).bytes, h.bytes, hafter]
    exact htotal
  have hreport : ∀ dryRun, (store.garbageCollectWithRoots roots dryRun none).1 =
      .ok ⟨min (store.markedDigests roots).card U64_MAX,
        saturatingAdd 0 (store.blobs.entries.filter (store.marked roots ·.1)).length,
        saturatingAdd 0 (unprotected store roots).length,
        saturatingAdd 0 ((unprotected store roots).map (·.2.length)).sum⟩ := by
    intro dryRun
    exact congrArg Except.ok (Store.sweep_report _ _ _ _ _ (Nat.zero_le _) (Nat.zero_le _) (Nat.zero_le _))
  refine ⟨?_, ?_, hsum, ⟨_, hreport false, ?_, ?_, ?_⟩, ?_⟩
  · intro digest hprotected
    rw [collect_lookup]
    split
    · rename_i hmem
      have hmarked := (mem_unkept.mp hmem).2
      rw [(marked_iff store roots digest).mpr hprotected] at hmarked
      cases hmarked
    · rfl
  · exact fun digest hnot => collect_unprotected hnot
  · simp only [saturatingAdd, Nat.zero_add]
  · simp only [saturatingAdd, Nat.zero_add]
  · have hword := h.word
    simp only [saturatingAdd, Nat.zero_add]
    omega
  · refine Prod.ext ((hreport true).trans (hreport false).symm) ?_
    rw [collect_store, if_pos rfl]

/-- As long as no new lease takes the number of a lease that is still held: what a holder put into its
    lease is there, a committed ingest puts its blob there, a blob is lost only to a collection that
    nothing protected it from, and a completed collection does what it says. -/
theorem collection_safe (sha : List U8 → D) (cfg : StoreConfig) (blobs : Table D (List U8)) (pins : List (String × D))
    (store : Store D) (hopen : Store.open blobs pins = some store) (temporary : Table Temporary (List U8))
    (events : List (Event D)) (hfresh : Allowed (next sha cfg) FreshLease (System.start store temporary) events) :
    let s := after (next sha cfg) (System.start store temporary) events
    (∀ (h : Nat) (handle : Handle D), s.handles[h]? = some handle → handle.released = false →
      ∀ digest ∈ handle.held, (s.store.blobs.lookup digest).isSome) ∧
    (∀ (k : Nat) (i : Ingest D) file descriptor h faults, s.ingests[k]? = some i → i.stage = .checked file descriptor →
      i.handle = some h → ∀ i', (next sha cfg (.step k (.commit faults)) s).ingests[k]? = some i' →
        i'.stage = .leaving file (.ok descriptor) → ∃ handle,
          (next sha cfg (.step k (.commit faults)) s).handles[h]? = some handle ∧ descriptor.digest ∈ handle.held) ∧
    (∀ event digest bytes, s.store.blobs.lookup digest = some bytes →
      (next sha cfg event s).store.blobs.lookup digest = some bytes ∨
        ∃ roots stop, event = .collect roots false stop ∧ ¬ Protected s.store roots digest ∧
          ∀ (h : Nat) (handle : Handle D), s.handles[h]? = some handle → handle.released = false →
            digest ∉ handle.held) ∧
    ∀ roots, Collects s.store roots := by
  have hs : Tended sha blobs (after (next sha cfg) (System.start store temporary) events) :=
    after_keeps (fun event s hallowed hs => Tended.next hs event hallowed) hfresh (start_tended hopen temporary)
  refine ⟨?_, ?_, ?_, fun roots => hs.guarded.books.collects roots⟩
  · intro h handle hh hlive digest hdigest
    obtain ⟨digests, hlookup, hsub⟩ := hs.guarded.held h handle hh hlive
    exact hs.guarded.present _ digests hlookup digest (hsub hdigest)
  · intro k i file descriptor h faults hi hstage hhandle i' hi' hstage'
    obtain ⟨-, hingests, hhandles⟩ := next_step sha cfg hi (.commit faults)
    have hk := (List.getElem?_eq_some_iff.mp hi).1
    rw [hingests, List.getElem?_set, if_pos rfl, if_pos hk] at hi'
    rw [hhandles]
    obtain rfl := Option.some_inj.mp hi'
    have horigin := hs.origin k i hi (by rw [hstage]; rfl)
    rw [hhandle] at horigin
    obtain ⟨holder, hholder, -⟩ := horigin
    revert hstage'
    simp only [advance, hstage, commitChecked]
    split
    · intro hstage'
      cases hstage'
    · intro _
      refine ⟨{ holder with held := insert descriptor.digest holder.held }, ?_, Finset.mem_insert_self _ _⟩
      simp only [hhandle, hold, List.getElem?_modify, hholder, if_true, Option.map_eq_map, Option.map_some]
  · intro event digest bytes hlookup
    rcases next_lookup hlookup event with hkept | ⟨roots, stop, rfl, hmarked⟩
    · exact .inl hkept
    · have hnot : ¬ Protected _ roots digest := fun hprotected => by
        rw [(marked_iff _ roots digest).mpr hprotected] at hmarked
        cases hmarked
      refine .inr ⟨roots, stop, rfl, hnot, fun h handle hh hlive hheld => hnot ?_⟩
      obtain ⟨digests, hknown, hsub⟩ := hs.guarded.held h handle hh hlive
      exact .inr (.inr ⟨handle.id, digests, hknown, hsub hheld⟩)

/-! ## A lease number taken twice -/

/-- A holder leases one blob. -/
def leaseOneBlob : List (Event (List U8)) :=
  [.createLease, .ingest none (some 0), .step 0 (.create [0] false), .step 0 (.read (.bytes [5])),
    .step 0 (.read (.bytes [])), .step 0 (.commit ⟨false, false⟩), .step 0 .finish]

/-- The blob survives a collection, and is collected once the lease is released. -/
theorem leased_blob_survives :
    let s := after (next id .new) (System.start emptyStore ∅) (leaseOneBlob ++ [.collect [] false none])
    (s.store.blobs.lookup [5]).isSome ∧ Collects s.store [] := by
  have hsafe := collection_safe id .new ∅ [] emptyStore rfl ∅ (leaseOneBlob ++ [.collect [] false none])
    (by decide +kernel)
  exact ⟨by decide +kernel, hsafe.2.2.2 []⟩

/-- Leases created and released, `n` of them; the first is the holder's number `first`. -/
def leaseRounds (D : Type) : Nat → Nat → List (Event D)
  | _, 0 => []
  | first, n + 1 => .createLease :: .release first :: leaseRounds D (first + 1) n

omit [DecidableEq D] in
theorem createLease_number (h : store.nextLeaseId.toNat + 1 < 2 ^ 64) :
    store.createLease.1 = store.nextLeaseId + 1 := by
  have hne : store.nextLeaseId + 1 ≠ 0 := by
    intro h0
    bv_omega
  simp only [createLease, if_neg hne]

theorem modify_last {α : Type} (xs) (x : α) (f) : (xs ++ [x]).modify xs.length f = xs ++ [f x] := by
  induction xs with
  | nil => rfl
  | cons y ys ih => exact congrArg (y :: ·) ih

variable (sha cfg) in
theorem round_next (hroom : s.store.nextLeaseId.toNat + 1 < 2 ^ 64)
    (hnew : s.store.leases.lookup (s.store.nextLeaseId + 1) = none) :
    next sha cfg (.release s.handles.length) (next sha cfg .createLease s) =
      { s with
        store := { s.store with nextLeaseId := s.store.nextLeaseId + 1 }
        handles := s.handles ++ [⟨s.store.nextLeaseId + 1, true, ∅⟩] } := by
  have hnumber := createLease_number hroom
  have hcreated : next sha cfg .createLease s =
      { s with
        store := { s.store with
          nextLeaseId := s.store.nextLeaseId + 1, leases := s.store.leases.insert (s.store.nextLeaseId + 1) ∅ }
        handles := s.handles ++ [⟨s.store.nextLeaseId + 1, false, ∅⟩] } := by
    simp only [next, createLease] at hnumber ⊢
    rw [hnumber]
  rw [hcreated]
  simp only [next, liveHandle, List.getElem?_concat_length, Option.filter, Bool.not_false, if_true, Store.releaseLease,
    Table.erase_insert hnew, modify_last]

variable (sha cfg) in
theorem leaseRounds_after (n) (hroom : s.store.nextLeaseId.toNat + n < 2 ^ 64)
    (hnew : ∀ id : U64, s.store.nextLeaseId.toNat < id.toNat → s.store.leases.lookup id = none) :
    (after (next sha cfg) s (leaseRounds D s.handles.length n)).store =
        { s.store with nextLeaseId := s.store.nextLeaseId + BitVec.ofNat 64 n } ∧
      ∀ h < s.handles.length, (after (next sha cfg) s (leaseRounds D s.handles.length n)).handles[h]? =
        s.handles[h]? := by
  induction n generalizing s with
  | zero => exact ⟨by simp [leaseRounds], fun _ _ => rfl⟩
  | succ n ih =>
    have hstep : (s.store.nextLeaseId + 1).toNat = s.store.nextLeaseId.toNat + 1 := by bv_omega
    have hround := round_next sha cfg (s := s) (by omega) (hnew _ (by omega))
    have hrun : after (next sha cfg) s (leaseRounds D s.handles.length (n + 1)) =
        after (next sha cfg) (next sha cfg (.release s.handles.length) (next sha cfg .createLease s))
          (leaseRounds D (s.handles.length + 1) n) := rfl
    rw [hrun, hround]
    have hlength : (s.handles ++ [(⟨s.store.nextLeaseId + 1, true, ∅⟩ : Handle D)]).length =
      s.handles.length + 1 := by simp
    obtain ⟨hstore, hhandles⟩ := ih (s := { s with
      store := { s.store with nextLeaseId := s.store.nextLeaseId + 1 }
      handles := s.handles ++ [⟨s.store.nextLeaseId + 1, true, ∅⟩] }) (by dsimp only; omega)
      (fun id hid => hnew id (by dsimp only at hid; omega))
    rw [hlength] at hstore hhandles
    refine ⟨hstore.trans ?_, fun h hh => (hhandles h (by omega)).trans (List.getElem?_append_left hh)⟩
    have hnumber : s.store.nextLeaseId + 1 + BitVec.ofNat 64 n = s.store.nextLeaseId + BitVec.ofNat 64 (n + 1) := by
      bv_omega
    rw [← hnumber]

/-- The holder still has its lease, and the blob in it is gone. -/
theorem reused_lease_number_loses_blob :
    let events := leaseOneBlob ++ leaseRounds (List U8) 1 (2 ^ 64 - 2) ++ [.createLease, .collect [] false none]
    let s := after (next id .new) (System.start emptyStore ∅) events
    ∃ handle, s.handles[0]? = some handle ∧ handle.released = false ∧ [5] ∈ handle.held ∧
      s.store.blobs.lookup [5] = none := by
  obtain ⟨leased, hleased⟩ : ∃ s, s = after (next id .new) (System.start emptyStore ∅) leaseOneBlob := ⟨_, rfl⟩
  have hhandles : leased.handles = [⟨1, false, {[5]}⟩] := by rw [hleased]; rfl
  have hnext : leased.store.nextLeaseId = 1 := by rw [hleased]; rfl
  have hpins : leased.store.pins = [] := by rw [hleased]; rfl
  have hleases : leased.store.leases = (∅ : Table U64 (Finset (List U8))).insert 1 {[5]} := by rw [hleased]; rfl
  obtain ⟨n, hn⟩ : ∃ n, n = 2 ^ 64 - 2 := ⟨_, rfl⟩
  have hnew : ∀ id : U64, leased.store.nextLeaseId.toNat < id.toNat → leased.store.leases.lookup id = none := by
    intro id hid
    have hne : id ≠ 1 := by
      rintro rfl
      rw [hnext] at hid
      exact absurd hid (Nat.lt_irrefl _)
    rw [hleases, AList.lookup_insert_ne hne]
    rfl
  obtain ⟨hstore, hkept⟩ := leaseRounds_after id .new n
    (by rw [hnext, hn]; decide) hnew
  rw [hhandles] at hstore hkept
  rw [← hn]
  dsimp only
  rw [after_append, after_append, ← hleased]
  generalize after (next id .new) leased (leaseRounds (List U8) 1 n) = turned at hstore hkept
  have hwrapped : turned.store.nextLeaseId + 1 = 0 := by
    rw [hstore, hnext, hn]
    show (1 + BitVec.ofNat 64 (2 ^ 64 - 2) + 1 : U64) = 0
    decide
  have hlast : (next id .new (.collect [] false none) (next id .new .createLease turned)).store.blobs.lookup [5] =
      none := by
    refine collect_unprotected ?_
    have hafter : (next id .new .createLease turned).store.leases =
        ((∅ : Table U64 (Finset (List U8))).insert 1 {[5]}).insert 1 ∅ := by
      simp only [next, createLease, hwrapped, if_true]
      rw [hstore]
      simp only [hleases]
    rintro (hroot | ⟨name, hpin⟩ | ⟨number, digests, hlookup, hmem⟩)
    · cases hroot
    · have hnone : (next id .new .createLease turned).store.pins = [] := by
        simp only [next, createLease]
        rw [hstore]
        exact hpins
      rw [hnone] at hpin
      cases hpin
    · rw [hafter, Table.lookup_insert_eq] at hlookup
      split at hlookup
      · cases hlookup
        cases hmem
      · rename_i hne
        rw [AList.lookup_insert_ne hne] at hlookup
        cases hlookup
  refine ⟨⟨1, false, {[5]}⟩, ?_, rfl, Finset.mem_singleton_self _, hlast⟩
  have hfirst := hkept 0 Nat.zero_lt_one
  show (turned.handles ++ [_])[0]? = _
  rw [List.getElem?_append_left (by
    by_contra hge
    rw [List.getElem?_eq_none (by omega)] at hfirst
    cases hfirst), hfirst]
  rfl

end Rish.Content
