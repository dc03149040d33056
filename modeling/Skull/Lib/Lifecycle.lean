import Mathlib.Data.List.Basic
import Mathlib.Data.List.Nodup

namespace Machines

/-!
# Jobs that are called once and then released

A component takes jobs from its users, calls each one back once, and then releases it.  What a
user sees is a log of calls and releases:

* `JobEvent`, `eventsOf` — the log, and the part of it that is about one job;
* `Lifecycle` — where a job is says what its part of the log is: nothing while it waits, one call
  while that runs, a call and then a release afterwards;
* `Lifecycle.accept`, `Lifecycle.call`, `Lifecycle.release`, `Lifecycle.drop` — the moves of a
  job, each of which keeps it.
-/

/-- What a user sees of a job. -/
inductive JobEvent (ι ρ : Type)
  /-- Its callback is called. -/
  | called (job : ι) (result : ρ)
  /-- Its release function is called. -/
  | released (job : ι)
  deriving DecidableEq, Repr

variable {ι ρ : Type}

/-- The job of an event. -/
def JobEvent.job : JobEvent ι ρ → ι
  | .called i _ => i
  | .released i => i

variable [DecidableEq ι]

/-- The events of a job. -/
def eventsOf (i : ι) (log : List (JobEvent ι ρ)) : List (JobEvent ι ρ) :=
  log.filter fun event => event.job = i

@[simp] theorem eventsOf_append (i : ι) (log log' : List (JobEvent ι ρ)) :
    eventsOf i (log ++ log') = eventsOf i log ++ eventsOf i log' := List.filter_append ..

/-- A call is an event of its own job. -/
theorem eventsOf_called (i j : ι) (r : ρ) :
    eventsOf i [.called j r] = if j = i then [.called j r] else [] := by
  by_cases h : j = i <;> simp [eventsOf, JobEvent.job, h]

theorem eventsOf_released (i j : ι) :
    eventsOf i [(.released j : JobEvent ι ρ)] = if j = i then [.released j] else [] := by
  by_cases h : j = i <;> simp [eventsOf, JobEvent.job, h]

/-- Of jobs that are released together, each is released once. -/
theorem eventsOf_released_map {jobs : List ι} (hnodup : jobs.Nodup) (i : ι) :
    eventsOf i (jobs.map (.released : ι → JobEvent ι ρ)) =
      if i ∈ jobs then [.released i] else [] := by
  induction jobs with
  | nil => rfl
  | cons j jobs ih =>
    obtain ⟨hj, hjobs⟩ := List.nodup_cons.mp hnodup
    have hsplit : eventsOf i ((j :: jobs).map (.released : ι → JobEvent ι ρ)) =
        eventsOf i [.released j] ++ eventsOf i (jobs.map .released) := by
      rw [← eventsOf_append]
      rfl
    rw [hsplit, ih hjobs, eventsOf_released]
    by_cases h : j = i
    · subst h
      simp [hj]
    · simp [h, Ne.symm h]

/-- **The life of the jobs.**  A job is `held` from its acceptance to its release, and `running`
    while its callback runs; a job that is `dropped` may be released without a call. -/
structure Lifecycle (held running accepted dropped : ι → Prop) (log : List (JobEvent ι ρ)) :
    Prop where
  held_accepted : ∀ i, held i → accepted i
  running_held : ∀ i, running i → held i
  unknown : ∀ i, ¬ accepted i → eventsOf i log = []
  waiting : ∀ i, held i → ¬ running i → eventsOf i log = []
  running : ∀ i, running i → ∃ r, eventsOf i log = [.called i r]
  done : ∀ i, accepted i → ¬ held i → (∃ r, eventsOf i log = [.called i r, .released i]) ∨
    dropped i ∧ eventsOf i log = [.released i]

namespace Lifecycle

variable {held running accepted dropped held' running' accepted' dropped' : ι → Prop}
  {log : List (JobEvent ι ρ)}

/-- Nothing has happened. -/
theorem empty : Lifecycle (fun _ : ι => False) (fun _ => False) (fun _ => False) dropped
    ([] : List (JobEvent ι ρ)) where
  held_accepted _ h := h.elim
  running_held _ h := h.elim
  unknown _ _ := rfl
  waiting _ h := h.elim
  running _ h := h.elim
  done _ h := h.elim

/-- No job moves. -/
theorem congr (h : Lifecycle held running accepted dropped log) (hheld : ∀ i, held' i ↔ held i)
    (hrunning : ∀ i, running' i ↔ running i) (haccepted : ∀ i, accepted' i ↔ accepted i)
    (hdropped : ∀ i, dropped i → dropped' i) :
    Lifecycle held' running' accepted' dropped' log := by
  obtain rfl : held' = held := funext fun i => propext (hheld i)
  obtain rfl : running' = running := funext fun i => propext (hrunning i)
  obtain rfl : accepted' = accepted := funext fun i => propext (haccepted i)
  exact ⟨h.held_accepted, h.running_held, h.unknown, h.waiting, h.running,
    fun i hi hno => (h.done i hi hno).imp_right fun hdrop => ⟨hdropped i hdrop.1, hdrop.2⟩⟩

/-- A job is accepted. -/
theorem accept (h : Lifecycle held running accepted dropped log) {i : ι} (hnew : ¬ accepted i)
    (hheld : ∀ j, held' j ↔ held j ∨ j = i) (haccepted : ∀ j, accepted' j ↔ accepted j ∨ j = i) :
    Lifecycle held' running accepted' dropped log := by
  refine ⟨fun j hj => ?_, fun j hj => ?_, fun j hj => ?_, fun j hj hidle => ?_, h.running,
    fun j hj hno => ?_⟩
  · exact (haccepted j).mpr (((hheld j).mp hj).imp_left (h.held_accepted j))
  · exact (hheld j).mpr (.inl (h.running_held j hj))
  · exact h.unknown j fun hold => hj ((haccepted j).mpr (.inl hold))
  · rcases (hheld j).mp hj with hold | rfl
    · exact h.waiting j hold hidle
    · exact h.unknown j hnew
  · rcases (haccepted j).mp hj with hold | rfl
    · exact h.done j hold fun hheld' => hno ((hheld j).mpr (.inl hheld'))
    · exact absurd ((hheld j).mpr (.inr rfl)) hno

/-- A job that waits is called. -/
theorem call (h : Lifecycle held running accepted dropped log) {i : ι} (r : ρ) (hi : held i)
    (hidle : ¬ running i) (hrunning : ∀ j, running' j ↔ running j ∨ j = i) :
    Lifecycle held running' accepted dropped (log ++ [.called i r]) := by
  have hother : ∀ j, j ≠ i → eventsOf j (log ++ [.called i r]) = eventsOf j log := by
    intro j hj
    rw [eventsOf_append, eventsOf_called, if_neg (Ne.symm hj), List.append_nil]
  refine ⟨h.held_accepted, fun j hj => ?_, fun j hj => ?_, fun j hj hno => ?_, fun j hj => ?_,
    fun j hj hno => ?_⟩
  · rcases (hrunning j).mp hj with hold | rfl
    · exact h.running_held j hold
    · exact hi
  · have hne : j ≠ i := by
      rintro rfl
      exact hj (h.held_accepted j hi)
    rw [hother j hne]
    exact h.unknown j hj
  · have hne : j ≠ i := by
      rintro rfl
      exact hno ((hrunning j).mpr (.inr rfl))
    rw [hother j hne]
    exact h.waiting j hj fun hold => hno ((hrunning j).mpr (.inl hold))
  · by_cases hne : j = i
    · subst hne
      refine ⟨r, ?_⟩
      rw [eventsOf_append, h.waiting j hi hidle, eventsOf_called, if_pos rfl, List.nil_append]
    · rw [hother j hne]
      exact h.running j (((hrunning j).mp hj).resolve_right hne)
  · have hne : j ≠ i := by
      rintro rfl
      exact hno hi
    rw [hother j hne]
    exact h.done j hj hno

/-- A job whose callback has returned is released. -/
theorem release (h : Lifecycle held running accepted dropped log) {i : ι} (hi : running i)
    (hheld : ∀ j, held' j ↔ held j ∧ j ≠ i) (hrunning : ∀ j, running' j ↔ running j ∧ j ≠ i) :
    Lifecycle held' running' accepted dropped (log ++ [.released i]) := by
  have hother : ∀ j, j ≠ i → eventsOf j (log ++ [.released i]) = eventsOf j log := by
    intro j hj
    rw [eventsOf_append, eventsOf_released, if_neg (Ne.symm hj), List.append_nil]
  refine ⟨fun j hj => ?_, fun j hj => ?_, fun j hj => ?_, fun j hj hno => ?_, fun j hj => ?_,
    fun j hj hno => ?_⟩
  · exact h.held_accepted j ((hheld j).mp hj).1
  · obtain ⟨hold, hne⟩ := (hrunning j).mp hj
    exact (hheld j).mpr ⟨h.running_held j hold, hne⟩
  · have hne : j ≠ i := by
      rintro rfl
      exact hj (h.held_accepted j (h.running_held j hi))
    rw [hother j hne]
    exact h.unknown j hj
  · obtain ⟨hold, hne⟩ := (hheld j).mp hj
    rw [hother j hne]
    exact h.waiting j hold fun hrun => hno ((hrunning j).mpr ⟨hrun, hne⟩)
  · obtain ⟨hold, hne⟩ := (hrunning j).mp hj
    rw [hother j hne]
    exact h.running j hold
  · by_cases hne : j = i
    · subst hne
      obtain ⟨r, hr⟩ := h.running j hi
      refine .inl ⟨r, ?_⟩
      rw [eventsOf_append, hr, eventsOf_released, if_pos rfl]
      rfl
    · rw [hother j hne]
      exact h.done j hj fun hold => hno ((hheld j).mpr ⟨hold, hne⟩)

/-- All jobs are dropped. -/
theorem drop (h : Lifecycle held running accepted dropped log) {jobs : List ι}
    (hnodup : jobs.Nodup) (hjobs : ∀ i, i ∈ jobs ↔ held i) (hidle : ∀ i, ¬ running i)
    (hdropped : ∀ i, dropped i ∨ i ∈ jobs → dropped' i) :
    Lifecycle (fun _ => False) (fun _ => False) accepted dropped' (log ++ jobs.map .released) := by
  refine ⟨fun _ h => h.elim, fun _ h => h.elim, fun i hi => ?_, fun _ h => h.elim,
    fun _ h => h.elim, fun i hi _ => ?_⟩
  · have hout : i ∉ jobs := fun hin => hi (h.held_accepted i ((hjobs i).mp hin))
    rw [eventsOf_append, eventsOf_released_map hnodup, if_neg hout, h.unknown i hi]
    rfl
  · rw [eventsOf_append, eventsOf_released_map hnodup]
    by_cases hin : i ∈ jobs
    · rw [if_pos hin, h.waiting i ((hjobs i).mp hin) (hidle i)]
      exact .inr ⟨hdropped i (.inr hin), rfl⟩
    · rw [if_neg hin, List.append_nil]
      exact (h.done i hi fun hheld => hin ((hjobs i).mpr hheld)).imp_right
        fun hdrop => ⟨hdropped i (.inl hdrop.1), hdrop.2⟩

end Lifecycle

end Machines
