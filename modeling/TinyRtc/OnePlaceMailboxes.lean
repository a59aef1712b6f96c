import Mathlib.Data.List.Forall2
import TinyRtc.LabelledRuns

namespace TinyRtc.OnePlaceMailboxes

open TinyRtc.LabelledRuns

variable {α : Type*}

/-- What happens to a buffer that holds one message, or none if it is empty. -/
inductive MailEvent (α : Type*) where
  | delivered (message : List α)
  | read (room : Nat) (bytes : List α)
  | cleared

/-- A delivery overwrites what is there, and a read takes it away, as far as there is room for
it. -/
inductive MailStep : List α → MailEvent α → List α → Prop
  | delivered (held message : List α) : MailStep held (.delivered message) message
  | read {held : List α} (room : Nat) (hheld : held ≠ []) :
      MailStep held (.read room (held.take room)) []
  | cleared (held : List α) : MailStep held .cleared []

def deliveries (events : List (MailEvent α)) : List (List α) :=
  events.filterMap fun event =>
    match event with
    | .delivered message => some message
    | _ => none

def reads (events : List (MailEvent α)) : List (Nat × List α) :=
  events.filterMap fun event =>
    match event with
    | .read room bytes => some (room, bytes)
    | _ => none

@[simp] theorem deliveries_append (first second : List (MailEvent α)) :
    deliveries (first ++ second) = deliveries first ++ deliveries second :=
  List.filterMap_append

@[simp] theorem reads_append (first second : List (MailEvent α)) :
    reads (first ++ second) = reads first ++ reads second :=
  List.filterMap_append

theorem reads_flatMap {β : Type*} (f : β → List (MailEvent α)) (items : List β) :
    reads (items.flatMap f) = items.flatMap fun item => reads (f item) :=
  List.filterMap_flatMap

/-- A read gives a message, as far as there was room for it. -/
def Gives (taken : Nat × List α) (message : List α) : Prop :=
  message ≠ [] ∧ taken.2 = message.take taken.1

/-- What has been read is what some of the messages were, in order, and none of them twice.
What the buffer holds is the last one, and it is not among them. -/
def Reader (past : List (MailEvent α)) (held : List α) : Prop :=
  ∃ messages, List.Forall₂ Gives (reads past) messages ∧ messages.Sublist (deliveries past) ∧
    (held ≠ [] → ∃ before, deliveries past = before ++ [held] ∧ messages.Sublist before)

theorem Reader.step {past : List (MailEvent α)} {held held' : List α} {event : MailEvent α}
    (h : Reader past held) (hstep : MailStep held event held') :
    Reader (past ++ [event]) held' := by
  obtain ⟨messages, hreads, hsublist, hheld⟩ := h
  cases hstep with
  | delivered message =>
      refine ⟨messages, ?_, ?_, fun _ => ⟨deliveries past, deliveries_append _ _, hsublist⟩⟩
      · rw [reads_append]
        exact (List.append_nil _).symm ▸ hreads
      · rw [deliveries_append]
        exact hsublist.trans (List.sublist_append_left _ _)
  | read room hne =>
      obtain ⟨before, hlast, hbefore⟩ := hheld hne
      refine ⟨messages ++ [held], ?_, ?_, fun hempty => absurd rfl hempty⟩
      · rw [reads_append]
        exact List.rel_append hreads (.cons ⟨hne, rfl⟩ .nil)
      · rw [deliveries_append, hlast]
        exact (hbefore.append (List.Sublist.refl _)).trans (List.sublist_append_left _ _)
  | cleared =>
      refine ⟨messages, ?_, ?_, fun hempty => absurd rfl hempty⟩
      · rw [reads_append]
        exact (List.append_nil _).symm ▸ hreads
      · rw [deliveries_append]
        exact hsublist.trans (List.sublist_append_left _ _)

theorem Reader.run {past events : List (MailEvent α)} {held held' : List α}
    (h : Reader past held) (hrun : Run MailStep held events held') :
    Reader (past ++ events) held' := by
  induction hrun generalizing past with
  | nil held =>
      rw [List.append_nil]
      exact h
  | @cons held held' held'' event events hstep _ ih =>
      have hrest := ih (h.step hstep)
      rwa [List.append_assoc] at hrest

theorem reader_empty : Reader ([] : List (MailEvent α)) [] :=
  ⟨[], .nil, List.Sublist.refl _, fun hempty => absurd rfl hempty⟩

end TinyRtc.OnePlaceMailboxes
