/-
  Rish.SoftVm.Virtio.Unnoticed — block devices that differ in past calls of the host only.

  A host answers by the calls it was asked before. Two histories are alike when it answers the same after both,
  whatever it is asked from then on.

  Proved: a poll cannot tell devices apart whose histories are alike (`pollKick_unnoticed`).
-/

import Rish.SoftVm.Virtio.Reset

namespace Rish.SoftVm.Virtio

open Lib
open Exec (view_bind update_bind)

/-! ## Histories of the host -/

/-- The host answers the same after both histories, from then on. -/
def BlockBackend.Alike (b : BlockBackend) (history history' : List BlockCall) : Prop :=
  ∀ later, b.readReply (history ++ later) = b.readReply (history' ++ later) ∧
    b.writeReply (history ++ later) = b.writeReply (history' ++ later)

theorem BlockBackend.Alike.snoc {b : BlockBackend} {history history'} (h : b.Alike history history') (call) :
    b.Alike (history ++ [call]) (history' ++ [call]) := by
  intro later
  rw [List.append_assoc, List.append_assoc]
  exact h ([call] ++ later)

namespace VirtioMmioBlk

/-- The device with other calls behind it. -/
def withHistory (d : VirtioMmioBlk) (history : List BlockCall) : VirtioMmioBlk :=
  { d with backend := { d.backend with history := history } }

/-- The same device and memory, with a history that the host does not tell apart. -/
structure Unnoticed (s s' : BlkState) : Prop where
  device : s'.1 = s.1.withHistory s'.1.backend.history
  alike : s.1.backend.Alike s.1.backend.history s'.1.backend.history
  memory : s.2 = s'.2

theorem Unnoticed.map {s s'} (h : Unnoticed s s') {f : VirtioMmioBlk → VirtioMmioBlk}
    (hbackend : ∀ d, (f d).backend = d.backend)
    (hf : ∀ d history, f (d.withHistory history) = (f d).withHistory history) :
    Unnoticed (f s.1, s.2) (f s'.1, s'.2) := by
  refine ⟨?_, ?_, h.memory⟩
  · show f s'.1 = _
    rw [hbackend, h.device, hf]
    rfl
  · show (f s.1).backend.Alike (f s.1).backend.history (f s'.1).backend.history
    rw [hbackend, hbackend]
    exact h.alike

instance : SharesMemory Unnoticed where
  memory _ _ h := h.memory
  stores _ _ h _ := ⟨h.device, h.alike, rfl⟩

instance {α : Type} (f : α → BlkM Unit) [∀ a, Matches Unnoticed (f a)] (l : List α) :
    Matches Unnoticed (forEach f l) := by
  induction l <;> (unfold forEach; infer_instance)

theorem view_matches {α : Type} {f : VirtioMmioBlk → α} (hf : ∀ d history, f (d.withHistory history) = f d) :
    Matches Unnoticed (Exec.view fun (d, _) => f d : BlkM α) :=
  .view fun s s' h => by
    show f s.1 = f s'.1
    rw [h.device, hf]

def advance (d : VirtioMmioBlk) (call : BlockCall) : VirtioMmioBlk :=
  { d with backend := { d.backend with history := d.backend.history ++ [call] } }

section

variable {s s' : BlkState} (h : Unnoticed s s')
include h

theorem Unnoticed.advance (call) : Unnoticed (s.1.advance call, s.2) (s'.1.advance call, s'.2) :=
  ⟨by rw [h.device]; rfl, h.alike.snoc call, h.memory⟩

theorem Unnoticed.replies :
    s'.1.backend.readReply s'.1.backend.history = s.1.backend.readReply s.1.backend.history ∧
      s'.1.backend.writeReply s'.1.backend.history = s.1.backend.writeReply s.1.backend.history := by
  have halike := h.alike []
  rw [List.append_nil, List.append_nil] at halike
  rw [halike.1, halike.2, h.device]
  exact ⟨rfl, rfl⟩

end

instance (offset n) : Matches Unnoticed (backendRead offset n) := by
  refine .of_runs fun s s' h => ?_
  simp only [backendRead, view_bind, update_bind, h.replies.1]
  cases s.1.backend.readReply s.1.backend.history offset n <;> exact ⟨rfl, h.advance _⟩

instance (offset input) : Matches Unnoticed (backendWrite offset input) := by
  refine .of_runs fun s s' h => ?_
  simp only [backendWrite, view_bind, update_bind, h.replies.2]
  cases s.1.backend.writeReply s.1.backend.history offset input <;> exact ⟨rfl, h.advance _⟩

/-! ## Requests and polls -/

instance (data start) : Matches Unnoticed (copyFromBackend data start) := by
  unfold copyFromBackend; infer_instance

instance (data start) : Matches Unnoticed (copyToBackend data start) := by unfold copyToBackend; infer_instance

instance (data) : Matches Unnoticed (writeSerial data) := by unfold writeSerial; infer_instance

instance (requestType data) : Matches Unnoticed (checkDirections requestType data) := by
  unfold checkDirections; infer_instance

instance (status byte length) : Matches Unnoticed (completeWith status byte length) := by
  unfold completeWith writeStatus; infer_instance

instance (requestType sector data status) : Matches Unnoticed (serveRequest requestType sector data status) := by
  have hrange := view_matches (f := fun d => d.checkedRange sector (totalBytes data)) fun _ _ => rfl
  unfold serveRequest
  refine Matches.bind fun range => ?_
  split_ifs
  · cases range <;> infer_instance
  · cases range with
    | none => infer_instance
    | some _ => exact Matches.bind fun o => by rcases o with _ | ⟨_ | _ | _⟩ | _ <;> infer_instance
  · infer_instance
  · infer_instance

instance (head) : Matches Unnoticed (processRequest head) := by
  have hqueue := view_matches (f := fun d => d.queue) fun _ _ => rfl
  unfold processRequest
  refine .bind fun queue => .bind fun chain => ?_
  rcases chain with _ | ⟨header, rest⟩
  · infer_instance
  · simp only
    cases rest.getLast? <;> infer_instance

theorem pollKick_skipped {s} (h : ¬KickServed s.1) :
    (pollKick s).state.1 = { s.1 with kickPending := false } ∧ (pollKick s).state.2 = s.2 := by
  simp only [pollKick, Exec.view_bind]
  split
  next hkick =>
    have hnone : s.1.kickPending = false := by simpa using hkick
    refine ⟨?_, rfl⟩
    rw [← hnone]
    rfl
  next hkick =>
    simp only [Exec.update_bind]
    rw [if_pos (by by_contra hgate; exact h ⟨by simpa using hkick, hgate⟩)]
    exact ⟨rfl, rfl⟩

/-- A kick is served alike. -/
theorem pollKick_unnoticed {s s'} (h : Unnoticed s s') : SameRun Unnoticed (pollKick s) (pollKick s') := by
  have hdevice (f : VirtioMmioBlk → VirtioMmioBlk) (hbackend : ∀ d, (f d).backend = d.backend)
      (hf : ∀ d history, f (d.withHistory history) = (f d).withHistory history) :
      Matches Unnoticed (Exec.update fun (d, m) => (f d, m) : BlkM Unit) := .update fun _ _ hs => hs.map hbackend hf
  have hkick : Unnoticed (takeKick s) (takeKick s') :=
    h.map (f := fun d => { d with kickPending := false }) (fun _ => rfl) fun _ _ => rfl
  have hsame : KickServed s'.1 = KickServed s.1 ∧ s'.1.queue = s.1.queue ∧ s'.1.lastSeenAvail = s.1.lastSeenAvail := by
    rw [h.device]
    exact ⟨rfl, rfl, rfl⟩
  by_cases hserved : KickServed s.1
  · rw [pollKick_served hserved, pollKick_served (hsame.1 ▸ hserved), hsame.2.1, hsame.2.2]
    have hrun (x : BlkM Bool) (hx : Matches Unnoticed x) : SameRun Unnoticed (x (takeKick s)) (x (takeKick s')) :=
      Matches.runs x hkick
    apply hrun
    refine .bind fun o => ?_
    rcases o with ⟨lastSeen, completed⟩ | e | _
    · have := hdevice (fun d => { d with
        lastSeenAvail := lastSeen
        irqStatus := if completed > 0 then d.irqStatus ||| Mmio.INTERRUPT_USED_RING else d.irqStatus }) (fun _ => rfl)
        fun _ _ => rfl
      infer_instance
    · have := hdevice (fun d => { d with fault := some ("virtio-blk stopped servicing: " ++ e.text) }) (fun _ => rfl)
        fun _ _ => rfl
      infer_instance
    · infer_instance
  · have hserved' : ¬KickServed s'.1 := hsame.1 ▸ hserved
    refine ⟨(pollKick_idle hserved).1.trans (pollKick_idle hserved').1.symm, ?_⟩
    rw [← Prod.mk.eta (p := (pollKick s).state), ← Prod.mk.eta (p := (pollKick s').state), (pollKick_skipped hserved).1,
      (pollKick_skipped hserved).2, (pollKick_skipped hserved').1, (pollKick_skipped hserved').2]
    exact hkick

end VirtioMmioBlk

end Rish.SoftVm.Virtio
