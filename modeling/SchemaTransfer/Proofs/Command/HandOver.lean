import SchemaTransfer.Command.Exit
import SchemaTransfer.Proofs.Run.Effects
import SchemaTransfer.Proofs.Run.Success

/-!
# What a console takes

Events are handed over to a console one after another. Those in front of the first one that the
console refuses are shown, and that one ends the command; if none is refused, all are shown and the
command goes on.
-/
namespace SchemaTransfer

/-- What a console has to read to show an event. -/
def Event.texts : Event → List Text
  | .print markup => [markup]
  | .table title header rows => Listing.texts ⟨title, header, rows⟩
  | _ => []

/-- The console refuses none of the events. -/
def Console.Takes (console : Console) (es : List Event) : Prop :=
  ∀ e ∈ es, console.refusal? e.texts = none

namespace Console

variable {console : Console} {e : Event} {es es' : List Event}

@[simp]
theorem takes_nil : console.Takes [] := List.forall_mem_nil _

@[simp]
theorem takes_cons : console.Takes (e :: es) ↔ console.refusal? e.texts = none ∧ console.Takes es :=
  List.forall_mem_cons

@[simp]
theorem takes_append : console.Takes (es ++ es') ↔ console.Takes es ∧ console.Takes es' :=
  List.forall_mem_append

/-- A console that shows all texts as they are refuses nothing. -/
@[simp]
theorem refusal?_plain (ts : List Text) : refusal? {} ts = none :=
  List.findSome?_eq_none_iff.mpr fun _ _ => rfl

theorem takes_plain (es : List Event) : Takes {} es := fun _ _ => refusal?_plain _

end Console

/-- The command ends because the console has refused something. -/
def Exit.IsRefusal (exit : Exit) : Prop := ∃ fault, exit = .raised (.outside fault)

/-- The world after some more events. -/
def World.record (w : World) (es : List Event) : World := { w with events := w.events ++ es }

namespace World

theorem record_nil (w : World) : w.record [] = w := by
  rw [record, List.append_nil]

theorem note_record (w : World) (e : Event) (es : List Event) :
    (w.note e).record es = w.record (e :: es) := by
  rw [record, note, List.append_assoc]
  rfl

end World

/-- How a command goes on that hands over some events and is then to end with `last`: with its exit
and what is shown of the events. -/
inductive Handed (console : Console) (last : Exit) : List Event → Exit → List Event → Prop
  | all {es : List Event} (htaken : console.Takes es) : Handed console last es last es
  | cut {before after : List Event} {e : Event} {fault : Fault} (htaken : console.Takes before)
    (hrefused : console.refusal? e.texts = some fault) :
    Handed console last (before ++ e :: after) (.raised (.outside fault)) before

namespace Handed

variable {console : Console} {last exit : Exit} {e : Event} {es shown : List Event}

theorem nil_iff : Handed console last [] exit shown ↔ exit = last ∧ shown = [] := by
  constructor
  · intro h
    generalize hnil : ([] : List Event) = all at h
    cases h with
    | all => exact ⟨rfl, rfl⟩
    | cut => exact absurd hnil (by simp)
  · rintro ⟨rfl, rfl⟩
    exact .all Console.takes_nil

theorem cons_iff : Handed console last (e :: es) exit shown ↔
    (∃ fault, console.refusal? e.texts = some fault ∧ exit = .raised (.outside fault) ∧
      shown = []) ∨
    console.refusal? e.texts = none ∧ ∃ rest, shown = e :: rest ∧
      Handed console last es exit rest := by
  constructor
  · intro h
    generalize hcons : e :: es = all at h
    cases h with
    | all htaken =>
      subst hcons
      obtain ⟨he, hes⟩ := Console.takes_cons.mp htaken
      exact Or.inr ⟨he, es, rfl, .all hes⟩
    | @cut _ after d fault htaken hrefused =>
      cases shown with
      | nil =>
        cases hcons
        exact Or.inl ⟨fault, hrefused, rfl, rfl⟩
      | cons d before =>
        cases hcons
        obtain ⟨he, hbefore⟩ := Console.takes_cons.mp htaken
        exact Or.inr ⟨he, before, rfl, .cut hbefore hrefused⟩
  · rintro (⟨fault, hrefused, rfl, rfl⟩ | ⟨he, rest, rfl, hrest⟩)
    · exact @Handed.cut _ _ [] _ _ _ Console.takes_nil hrefused
    · cases hrest with
      | all hes => exact .all (Console.takes_cons.mpr ⟨he, hes⟩)
      | @cut _ after d fault hbefore hrefused =>
        exact @Handed.cut _ _ (e :: rest) _ _ _ (Console.takes_cons.mpr ⟨he, hbefore⟩) hrefused

theorem isRefusal_or (h : Handed console last es exit shown) :
    exit.IsRefusal ∨ exit = last ∧ shown = es := by
  cases h with
  | all => exact Or.inr ⟨rfl, rfl⟩
  | cut => exact Or.inl ⟨_, rfl⟩

theorem eq_of_takes (h : Handed console last es exit shown) (htaken : console.Takes es) :
    exit = last ∧ shown = es := by
  cases h with
  | all => exact ⟨rfl, rfl⟩
  | cut _ hrefused =>
    rw [(Console.takes_cons.mp (Console.takes_append.mp htaken).2).1] at hrefused
    cases hrefused

/-- An end that is none of a console is reached exactly if all is taken. -/
theorem exit_eq_iff (h : Handed console last es exit shown)
    (hlast : ∀ fault, last ≠ .raised (.outside fault)) : exit = last ↔ console.Takes es := by
  cases h with
  | all htaken => exact iff_of_true rfl htaken
  | cut _ hrefused =>
    refine iff_of_false (fun h => hlast _ h.symm) fun htaken => ?_
    rw [(Console.takes_cons.mp (Console.takes_append.mp htaken).2).1] at hrefused
    cases hrefused

end Handed

namespace Run

variable {α : Type} {console : Console} {last : Exit} {es : List Event} {v w : World}

/-- Hands over one event after another. -/
def handAll (console : Console) : List Event → Run Exit Unit
  | [] => return
  | e :: es => do
    handOver (console.refusal? e.texts) e
    handAll console es

/-- The events are taken and recorded, and the run goes on; or the first that is refused ends it. -/
theorem handAll_bind (console : Console) (es : List Event) (x : Run Exit α) (w : World) :
    console.Takes es ∧ (handAll console es >>= fun _ => x) w = x (w.record es) ∨
    ∃ before e after fault, es = before ++ e :: after ∧ console.Takes before ∧
      console.refusal? e.texts = some fault ∧
      (handAll console es >>= fun _ => x) w =
        (.error (.raised (.outside fault)), w.record before) := by
  induction es generalizing w with
  | nil =>
    rw [World.record_nil]
    exact Or.inl ⟨Console.takes_nil, rfl⟩
  | cons e es ih =>
    rw [handAll, bind_assoc, bind_apply]
    cases hrefusal : console.refusal? e.texts with
    | some fault =>
      refine Or.inr ⟨[], e, es, fault, rfl, Console.takes_nil, hrefusal, ?_⟩
      rw [World.record_nil]
      rfl
    | none =>
      rcases ih (w.note e) with ⟨htaken, hx⟩ | ⟨before, d, after, fault, rfl, htaken, hd, hx⟩
      · rw [World.note_record] at hx
        exact Or.inl ⟨Console.takes_cons.mpr ⟨hrefusal, htaken⟩, hx⟩
      · rw [World.note_record] at hx
        exact Or.inr ⟨e :: before, d, after, fault, rfl, Console.takes_cons.mpr ⟨hrefusal, htaken⟩,
          hd, hx⟩

theorem handAll_bind_of_takes (h : console.Takes es) (x : Run Exit α) (w : World) :
    (handAll console es >>= fun _ => x) w = x (w.record es) := by
  rcases handAll_bind console es x w with ⟨-, hx⟩ | ⟨before, e, after, fault, rfl, -, hrefused, -⟩
  · exact hx
  · rw [(Console.takes_cons.mp (Console.takes_append.mp h).2).1] at hrefused
    cases hrefused

theorem handAll_of_takes (h : console.Takes es) (w : World) :
    handAll console es w = (.ok (), w.record es) := by
  have hall := handAll_bind_of_takes h (Pure.pure () : Run Exit Unit) w
  rwa [bind_pure_unit] at hall

theorem handAll_eq_ok (h : handAll console es w = (.ok (), v)) :
    console.Takes es ∧ v = w.record es := by
  rcases handAll_bind console es (Pure.pure () : Run Exit Unit) w with
    ⟨htaken, -⟩ | ⟨before, e, after, fault, -, -, -, hx⟩
  · rw [handAll_of_takes htaken] at h
    cases h
    exact ⟨htaken, rfl⟩
  · rw [bind_pure_unit, h] at hx
    cases hx

/-- A command that is to end when all is handed over. -/
theorem handed_fail (console : Console) (last : Exit) (es : List Event) (w : World) :
    ∃ exit shown, Handed console last es exit shown ∧
      (handAll console es >>= fun _ => fail last : Run Exit α) w =
        (.error exit, w.record shown) := by
  rcases handAll_bind console es (fail last : Run Exit α) w with
    ⟨htaken, hx⟩ | ⟨before, e, after, fault, rfl, htaken, hrefused, hx⟩
  · exact ⟨last, es, .all htaken, hx⟩
  · exact ⟨_, before, .cut htaken hrefused, hx⟩

/-- A command that is done when all is handed over. -/
theorem handed_handAll (console : Console) (es : List Event) (w : World) :
    ∃ exit shown, Handed console .done es exit shown ∧
      Exit.ofResult (handAll console es w).1 = exit ∧
      (handAll console es w).2 = w.record shown := by
  have hall := handAll_bind console es (Pure.pure () : Run Exit Unit) w
  rw [bind_pure_unit] at hall
  rcases hall with ⟨htaken, hx⟩ | ⟨before, e, after, fault, rfl, htaken, hrefused, hx⟩
  · rw [hx]
    exact ⟨.done, es, .all htaken, rfl, rfl⟩
  · rw [hx]
    exact ⟨_, before, .cut htaken hrefused, rfl, rfl⟩

/-! ## What commands say -/

theorem handAll_print (console : Console) (l : Line) :
    handAll console [.print l.markup] = say console l := bind_pure_unit

theorem handAll_table (console : Console) (l : Listing) :
    handAll console [.table l.title l.header l.rows] = present console l := bind_pure_unit

/-- What is said of a failure of which the input is not the cause. -/
def complaint (message : Text) : List Event :=
  [.print (Line.error message).markup, .print (Line.hint "Run with --help for usage.").markup]

theorem giveUpWithHint_eq (console : Console) (message : Text) :
    (giveUpWithHint console message : Run Exit α) = (do
      handAll console (complaint message)
      fail .failed) := by
  simp only [complaint, handAll, bind_pure_unit, bind_assoc]
  rfl

theorem handAll_append (console : Console) (es es' : List Event) :
    handAll console (es ++ es') = (do
      handAll console es
      handAll console es') := by
  induction es with
  | nil => rfl
  | cons e es ih => rw [List.cons_append, handAll, ih, handAll, bind_assoc]

end Run

end SchemaTransfer
