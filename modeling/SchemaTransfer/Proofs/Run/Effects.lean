import Mathlib.Order.Defs.Unbundled
import SchemaTransfer.Run.World

/-!
# What a run leaves and what it depends on

Most runs leave the files and the destination alone and only add to the record, and what they add is
of few kinds. Two runs agree if they end alike in worlds that the destination cannot tell apart, and
leave such worlds again.
-/
namespace SchemaTransfer

/-! ## Kinds of events -/

namespace Event

/-- What concerns a connection to a server. -/
def isConnection : Event → Bool
  | .connect _ _ | .call _ => true
  | _ => false

/-- The signs of writing: a file is opened, a table is asked for or created, or the log has an
error. Nothing is logged as an error but that a table could not be created. -/
def isWriting : Event → Bool
  | .opened _ | .request _ | .created _ | .log .error _ => true
  | _ => false

/-- What is only said: it concerns no connection, asks for nothing and writes nothing. -/
def isQuiet : Event → Bool
  | .log level _ => level ≠ .error
  | .client _ | .chooseInstance _ | .print _ | .status _ | .table _ _ _ | .usage => true
  | _ => false

/-- What is said, but not to those who use the program: it goes to the log or to a service. -/
def isUnseen : Event → Bool
  | .log level _ => level ≠ .error
  | .client _ | .chooseInstance _ => true
  | _ => false

/-- What those who use the program see. -/
def isOnScreen : Event → Bool
  | .print _ | .status _ | .table _ _ _ | .confirm _ _ | .usage => true
  | _ => false

/-- What may happen while a server is read and its connection is open. -/
def isReading : Event → Bool
  | .call c => c ≠ .close
  | e => e.isQuiet

theorem isQuiet_of_isUnseen {e : Event} (h : e.isUnseen) : e.isQuiet := by
  cases e <;> first | exact h | cases h

theorem not_isOnScreen_of_isUnseen {e : Event} (h : e.isUnseen) : !e.isOnScreen := by
  cases e <;> first | rfl | cases h

theorem isReading_of_isQuiet {e : Event} (h : e.isQuiet) : e.isReading := by
  unfold isReading
  split
  · cases h
  · exact h

theorem not_isWriting_of_isReading {e : Event} (h : e.isReading) : !e.isWriting := by
  unfold isWriting
  split
  · cases h
  · cases h
  · cases h
  · cases h
  · rfl

theorem not_isWriting_of_isQuiet {e : Event} (h : e.isQuiet) : !e.isWriting :=
  not_isWriting_of_isReading (isReading_of_isQuiet h)

theorem not_isConnection_of_isQuiet {e : Event} (h : e.isQuiet) : !e.isConnection := by
  unfold isConnection
  split
  · cases h
  · cases h
  · rfl

theorem request?_of_not_isWriting {e : Event} (h : !e.isWriting) : e.request? = none := by
  unfold request?
  split
  · cases h
  · rfl

end Event

theorem World.requests_note (w : World) (e : Event) :
    (w.note e).requests = w.requests ++ e.request?.toList := by
  rw [World.requests, World.note, List.filterMap_append]
  cases h : e.request? <;> simp [h, World.requests]

/-! ## From a world to a later one -/

/-- All that happened from the first world to the second is of one kind. -/
def World.Records (p : Event → Bool) (w v : World) : Prop :=
  ∃ es, v.events = w.events ++ es ∧ ∀ e ∈ es, p e

/-- From the first world to the second only events of one kind happened, and no file and no table at
the destination changed. -/
structure World.Passes (p : Event → Bool) (w v : World) : Prop where
  files : v.files = w.files
  tables : v.tables = w.tables
  records : w.Records p v

/-- The second world differs from the first one at most in what else has happened. -/
structure World.Untouched (w v : World) : Prop where
  files : v.files = w.files
  tables : v.tables = w.tables
  requests : v.requests = w.requests

namespace World

variable {p q : Event → Bool} {u v w : World}

theorem Records.mono (h : w.Records p v) (hpq : ∀ e, p e → q e) : w.Records q v := by
  obtain ⟨es, hevents, hes⟩ := h
  exact ⟨es, hevents, fun e he => hpq e (hes e he)⟩

theorem records_note (w : World) {e : Event} (h : p e) : w.Records p (w.note e) :=
  ⟨[e], rfl, List.forall_mem_singleton.mpr h⟩

theorem Records.refl (p : Event → Bool) (w : World) : w.Records p w :=
  ⟨[], (List.append_nil _).symm, List.forall_mem_nil _⟩

theorem Records.trans (h : u.Records p v) (h' : v.Records p w) : u.Records p w := by
  obtain ⟨es, hv, hes⟩ := h
  obtain ⟨fs, hw, hfs⟩ := h'
  refine ⟨es ++ fs, ?_, List.forall_mem_append.mpr ⟨hes, hfs⟩⟩
  rw [hw, hv, List.append_assoc]

instance : IsPreorder World (Records p) where
  refl := Records.refl p
  trans _ _ _ := Records.trans

theorem Passes.mono (h : w.Passes p v) (hpq : ∀ e, p e → q e) : w.Passes q v :=
  ⟨h.files, h.tables, h.records.mono hpq⟩

theorem passes_note (w : World) {e : Event} (h : p e) : w.Passes p (w.note e) :=
  ⟨rfl, rfl, records_note w h⟩

theorem Passes.refl (p : Event → Bool) (w : World) : w.Passes p w := ⟨rfl, rfl, .refl p w⟩

theorem Passes.trans (h : u.Passes p v) (h' : v.Passes p w) : u.Passes p w :=
  ⟨h'.files.trans h.files, h'.tables.trans h.tables, h.records.trans h'.records⟩

instance : IsPreorder World (Passes p) where
  refl := Passes.refl p
  trans _ _ _ := Passes.trans

/-- Where nothing is written nothing is asked for. -/
theorem Passes.untouched (h : w.Passes p v) (hp : ∀ e, p e → !e.isWriting) :
    w.Untouched v := by
  obtain ⟨hfiles, htables, es, hevents, hes⟩ := h
  refine ⟨hfiles, htables, ?_⟩
  have hnone : es.filterMap Event.request? = [] :=
    List.filterMap_eq_nil_iff.mpr fun e he => Event.request?_of_not_isWriting (hp e (hes e he))
  rw [requests, hevents, List.filterMap_append, hnone, List.append_nil, requests]

end World

namespace Run

/-- A property that a run has if the parts that follow one another in it have it. -/
structure Composes {ε : Type} (P : ∀ α : Type, Run ε α → Prop) : Prop where
  done : ∀ {α : Type} (a : α), P α (Pure.pure a)
  next : ∀ {α β : Type} {x : Run ε α} {f : α → Run ε β},
    P α x → (∀ a, P β (f a)) → P β (x >>= f)

variable {ε ε' α β : Type} {R S : World → World → Prop}

/-- However a run ends, the world after it is in the relation `R` to the world before it. -/
def Within (R : World → World → Prop) (x : Run ε α) : Prop := ∀ w : World, R w (x w).2

/-- A run that only says something. -/
abbrev Quiet (x : Run ε α) : Prop := Within (World.Passes Event.isQuiet) x

/-- A run that says something, but not to those who use the program. -/
abbrev Unseen (x : Run ε α) : Prop := Within (World.Passes Event.isUnseen) x

/-- A run that may do much, of which those who use the program see nothing. -/
abbrev OffScreen (x : Run ε α) : Prop := Within (World.Records fun e => !e.isOnScreen) x

def Leaves (x : Run ε α) : Prop := ∀ w : World, w.Untouched (x w).2

theorem Within.mono {x : Run ε α} (h : Within R x) (hRS : ∀ w v, R w v → S w v) : Within S x :=
  fun w => hRS w _ (h w)

theorem Within.next {x : Run ε α} {r : Except ε α} {w v : World} (h : Within R x)
    (hx : x w = (r, v)) : R w v := by
  have hw := h w
  rwa [hx] at hw

section

variable [IsPreorder World R]

theorem within_pure (a : α) : Within R (Pure.pure a : Run ε α) := fun w => refl_of R w

theorem within_fail (e : ε) : Within R (fail e : Run ε α) := fun w => refl_of R w

theorem within_ofExcept (r : Except ε α) : Within R (ofExcept r) := by
  cases r with
  | error e => exact within_fail e
  | ok a => exact within_pure a

/-- Whether or not the second part of a run is reached, it adds what it adds to the first. -/
theorem after_bind (x : Run ε α) {f : α → Run ε β} (hf : ∀ a, Within R (f a)) (w : World) :
    R (x w).2 ((x >>= f) w).2 := by
  rw [bind_apply]
  rcases x w with ⟨_ | a, v⟩
  · exact refl_of R v
  · exact hf a v

theorem after_recover (x : Run ε α) {f : ε → Run ε' α} (hf : ∀ e, Within R (f e)) (w : World) :
    R (x w).2 (x.recover f w).2 := by
  rw [recover]
  rcases x w with ⟨e | _, v⟩
  · exact hf e v
  · exact refl_of R v

theorem within_bind {x : Run ε α} {f : α → Run ε β} (hx : Within R x) (hf : ∀ a, Within R (f a)) :
    Within R (x >>= f) :=
  fun w => trans_of R (hx w) (after_bind x hf w)

theorem composes_within : Composes fun _ (x : Run ε _) => Within R x := ⟨within_pure, within_bind⟩

theorem within_recover {x : Run ε α} {f : ε → Run ε' α} (hx : Within R x)
    (hf : ∀ e, Within R (f e)) : Within R (x.recover f) :=
  fun w => trans_of R (hx w) (after_recover x hf w)

end

/-- The world after `last` is that of the whole, whichever of the two failed. -/
theorem ensuring_world (x : Run ε α) (last : Run ε Unit) (w : World) :
    (x.ensuring last w).2 = (last (x w).2).2 := by
  rw [ensuring]
  dsimp only
  rcases last (x w).2 with ⟨_ | _, v⟩ <;> rfl

theorem quiet_note {e : Event} (h : e.isQuiet) : Quiet (note e : Run ε Unit) :=
  fun w => w.passes_note h

theorem quiet_info (message : Text) : Quiet (log .info message : Run ε Unit) := quiet_note rfl

theorem Unseen.quiet {x : Run ε α} (h : Unseen x) : Quiet x :=
  h.mono fun _ _ hwv => hwv.mono fun _ => Event.isQuiet_of_isUnseen

theorem Unseen.offScreen {x : Run ε α} (h : Unseen x) : OffScreen x :=
  h.mono fun _ _ hwv => hwv.records.mono fun _ => Event.not_isOnScreen_of_isUnseen

theorem unseen_info (message : Text) : Unseen (log .info message : Run ε Unit) :=
  fun w => w.passes_note rfl

end Run

/-! ## Runs that agree -/

/-- Worlds with the same tables at the destination and the same requests before. -/
structure World.SameDestination (w v : World) : Prop where
  tables : v.tables = w.tables
  requests : v.requests = w.requests

theorem World.SameDestination.refl (w : World) : w.SameDestination w := ⟨rfl, rfl⟩

theorem World.SameDestination.withFiles {w v : World} (h : w.SameDestination v) (fs : FileSystem) :
    w.SameDestination { v with files := fs } :=
  ⟨h.tables, h.requests⟩

theorem World.SameDestination.note {w v : World} (h : w.SameDestination v) {d e : Event}
    (he : d.request? = e.request?) : (w.note d).SameDestination (v.note e) :=
  ⟨h.tables, by rw [requests_note, requests_note, h.requests, he]⟩

theorem World.Untouched.sameDestination {w v : World} (h : w.Untouched v) : w.SameDestination v :=
  ⟨h.tables, h.requests⟩

theorem World.SameDestination.trans {u v w : World} (h : u.SameDestination v)
    (h' : v.SameDestination w) : u.SameDestination w :=
  ⟨h'.tables.trans h.tables, h'.requests.trans h.requests⟩

theorem World.SameDestination.noteOther {w v : World} (h : w.SameDestination v) {e : Event}
    (he : e.request? = none) : w.SameDestination (v.note e) := by
  refine ⟨h.tables, ?_⟩
  rw [requests_note, he]
  exact (List.append_nil _).trans h.requests

theorem World.SameDestination.symm {w v : World} (h : w.SameDestination v) : v.SameDestination w :=
  ⟨h.tables.symm, h.requests.symm⟩

namespace Run

variable {ε ε' α β : Type}

def Agree (x y : Run ε α) : Prop :=
  ∀ w v : World, w.SameDestination v → (y v).1 = (x w).1 ∧ (x w).2.SameDestination (y v).2

theorem agree_pure (a : α) : Agree (Pure.pure a : Run ε α) (Pure.pure a) := fun _ _ h => ⟨rfl, h⟩

theorem agree_fail (e : ε) : Agree (fail e : Run ε α) (fail e) := fun _ _ h => ⟨rfl, h⟩

theorem agree_ofExcept (r : Except ε α) : Agree (ofExcept r) (ofExcept r) := by
  cases r with
  | error e => exact agree_fail e
  | ok a => exact agree_pure a

theorem agree_bind {x y : Run ε α} {f g : α → Run ε β} (hx : Agree x y)
    (hf : ∀ a, Agree (f a) (g a)) : Agree (x >>= f) (y >>= g) := by
  intro w v h
  have hxy := hx w v h
  rw [bind_apply, bind_apply]
  rcases hxw : x w with ⟨r, w'⟩
  rcases hyv : y v with ⟨r', v'⟩
  rw [hxw, hyv] at hxy
  obtain ⟨hr, h'⟩ := hxy
  cases hr
  cases r with
  | error e => exact ⟨rfl, h'⟩
  | ok a => exact hf a w' v' h'

theorem agree_result {x y : Run ε α} (h : Agree x y) :
    Agree (x.result : Run ε' (Except ε α)) y.result := by
  intro w v hwv
  have hxy := h w v hwv
  rw [result, result]
  exact ⟨congrArg Except.ok hxy.1, hxy.2⟩

/-- Different messages make no difference to the destination. -/
theorem agree_log (level level' : LogLevel) (message message' : Text) :
    Agree (log level message : Run ε Unit) (log level' message') :=
  fun _ _ h => ⟨rfl, h.note rfl⟩

end Run

end SchemaTransfer
