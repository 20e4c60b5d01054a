import ReadAhead.Proofs.Queue.Shutdown

/-!
  Reports — what a queue publishes of itself

  A step publishes the statistics at its end, unless it has changed none of them.
  Publishing statistics that are the same does nothing, so it makes no difference
  whether such a step publishes them.

  What is proved:
    1. `Accounted.published_apply` — after every step, the stream is the one before
       with the statistics published that the queue has then.
    2. `run_reported` — so what is published are the statistics, in every reachable
       state.
    3. `Accounted.counter_apply` — a step that counts adds to a counter.
-/

namespace ReadAhead.Queue

variable {α : Type} {q : Queue α}

def Reported (q : Queue α) : Prop := q.published.value = q.statistics

theorem Reported.quiet (r : q.Reported) {q' : Queue α} (same : q'.statistics = q.statistics)
    (published : q'.published = q.published) :
    q'.published = q.published.publish q'.statistics := by
  rw [published, same, ← show q.published.value = q.statistics from r, Stream.publish_value]

theorem published_abandonAll (q : Queue α) (ids : List TaskNumber) :
    (q.abandonAll ids).published = q.published := by
  rw [abandonAll_frame]

theorem published_submit (q : Queue α) (priority : Priority) (choice : Nat) :
    (q.submit priority choice).2.published
      = q.published.publish (q.submit priority choice).2.statistics := by
  cases refused : q.refuses priority with
  | true =>
    rw [submit_of_refused refused, abandon_eq, modifyTask_frame]
    rfl
  | false =>
    rw [submit_of_taken refused]
    rfl

theorem Accounted.published_look (h : q.Accounted []) (r : q.Reported) (worker : Nat) :
    (q.look worker).published = q.published.publish (q.look worker).statistics := by
  rcases h.look_cases worker with same | ⟨w, _, _, eq⟩ | ⟨t, rest, _, _, _, _, eq⟩
  · rw [same]
    exact r.quiet rfl rfl
  · rw [eq]
    exact r.quiet rfl rfl
  · rw [eq]
    rfl

theorem published_finish (r : q.Reported) (worker : Nat) (e : WorkEnd α) :
    (q.finish worker e).published = q.published.publish (q.finish worker e).statistics := by
  rcases finish_cases q worker e with ⟨id, hw⟩ | same
  · obtain ⟨tasks, ending, size, _, eq⟩ := finish_frame hw e
    rw [eq]
    refine r.quiet ?_ rfl
    rw [statistics, statistics, size]
  · rw [same]
    exact r.quiet rfl rfl

theorem published_record (r : q.Reported) (worker : Nat) :
    (q.record worker).published = q.published.publish (q.record worker).statistics := by
  rcases record_cases q worker with ⟨id, ending, hw⟩ | same
  · obtain ⟨_, _, _, recorded, _⟩ := record_eq hw
    rw [recorded]
    rfl
  · rw [same]
    exact r.quiet rfl rfl

theorem published_cancel (r : q.Reported) (id : TaskNumber) :
    (q.cancel id).2.published = q.published.publish (q.cancel id).2.statistics := by
  by_cases waits : id ∈ q.waiting
  · rw [cancel_waiting waits, abandon_eq, modifyTask_frame]
    rfl
  · rw [cancel_not_waiting waits, abandon_eq, modifyTask_frame]
    split
    · cases still : q.isOpen id with
      | true => rfl
      | false =>
        refine r.quiet ?_ rfl
        have size := size_modifyTask q id (Task.settle true (.error .cancelled))
        simp [statistics, size]
    · exact r.quiet rfl rfl

theorem published_setBackground (r : q.Reported) (enabled : Bool) :
    (q.setBackground enabled).published
      = q.published.publish (q.setBackground enabled).statistics := by
  unfold setBackground
  split
  · exact r.quiet rfl rfl
  · dsimp only
    split
    · rfl
    · refine congrArg (Stream.publish · _) ?_
      exact (published_abandonAll _ _).trans (published_abandonAll _ _)

theorem published_stop (r : q.Reported) :
    q.stop.published = q.published.publish q.stop.statistics := by
  cases on : q.stopped with
  | true =>
    rw [stop_again on]
    exact r.quiet rfl rfl
  | false =>
    rw [stop_eq on]
    refine congrArg (Stream.publish · _) ?_
    exact (published_abandonAll _ _).trans (published_abandonAll _ _)

/-- **Every step publishes the statistics that the queue has then.** -/
theorem Accounted.published_apply (h : q.Accounted []) (r : q.Reported) (event : QueueEvent α) :
    (q.apply event).published = q.published.publish (q.apply event).statistics := by
  cases event with
  | submit priority choice => exact published_submit q priority choice
  | look worker => exact h.published_look r worker
  | finish worker workEnd => exact published_finish r worker workEnd
  | record worker => exact published_record r worker
  | cancel id => exact published_cancel r id
  | setBackground enabled => exact published_setBackground r enabled
  | pause =>
    show q.pause.published = q.published.publish q.pause.statistics
    unfold pause
    split
    · exact r.quiet rfl rfl
    · rfl
  | resume =>
    show q.resume.published = q.published.publish q.resume.statistics
    unfold resume
    split
    · rfl
    · exact r.quiet rfl rfl
  | stop => exact published_stop r

theorem Accounted.reported_apply (h : q.Accounted []) (r : q.Reported) (event : QueueEvent α) :
    (q.apply event).Reported := by
  rw [Reported, h.published_apply r, Stream.value_publish]

theorem run_reported (workers : Nat) (paused : Bool) (events : List (QueueEvent α)) :
    ((start workers paused).run events).Reported :=
  ((start_accounted workers paused).run_induction (fun _ h => h.reported_apply) rfl events).2

/-! ## Counters -/

theorem counter_publish (q : Queue α) (e : Ending) : q.publish.counter e = q.counter e := rfl

theorem counter_abandon (q : Queue α) (id : TaskNumber) (e : Ending) :
    q.counter e ≤ (q.abandon id).2.counter e := by
  rw [abandon_eq, modifyTask_frame]
  cases e with
  | completed | failed => exact Nat.le_refl _
  | cancelled => exact Nat.le_add_right _ _

theorem counter_abandonAll {q : Queue α} {e : Ending} {n : Nat} (le : n ≤ q.counter e)
    (ids : List TaskNumber) : n ≤ (q.abandonAll ids).counter e := by
  unfold abandonAll
  induction ids generalizing q with
  | nil => exact le
  | cons id ids ih => exact ih (Nat.le_trans le (counter_abandon q id e))

/-- **No counter ever falls.** -/
theorem Accounted.counter_apply (h : q.Accounted []) (event : QueueEvent α) (e : Ending) :
    q.counter e ≤ (q.apply event).counter e := by
  cases event with
  | submit priority choice =>
    show q.counter e ≤ (q.submit priority choice).2.counter e
    cases refused : q.refuses priority with
    | true =>
      rw [submit_of_refused refused, counter_publish]
      exact counter_abandon { q with tasks := q.tasks.push _ } _ e
    | false =>
      rw [submit_of_taken refused]
      exact Nat.le_refl _
  | look worker =>
    show q.counter e ≤ (q.look worker).counter e
    rcases h.look_cases worker with same | ⟨w, _, _, eq⟩ | ⟨t, rest, _, _, _, _, eq⟩
    · exact Nat.le_of_eq (by rw [same])
    · rw [eq]
      exact Nat.le_refl _
    · rw [eq]
      exact Nat.le_refl _
  | finish worker workEnd =>
    show q.counter e ≤ (q.finish worker workEnd).counter e
    rcases finish_cases q worker workEnd with ⟨id, hw⟩ | same
    · obtain ⟨_, _, _, _, eq⟩ := finish_frame hw workEnd
      rw [eq]
      exact Nat.le_refl _
    · exact Nat.le_of_eq (by rw [same])
  | record worker =>
    show q.counter e ≤ (q.record worker).counter e
    rcases record_cases q worker with ⟨id, ending, hw⟩ | same
    · obtain ⟨_, _, _, recorded, counts⟩ := record_eq hw
      rw [recorded]
      exact Nat.le_of_add_right_le (Nat.le_of_eq (counts e).symm)
    · exact Nat.le_of_eq (by rw [same])
  | cancel id =>
    show q.counter e ≤ (q.cancel id).2.counter e
    by_cases waits : id ∈ q.waiting
    · rw [cancel_waiting waits, counter_publish]
      exact counter_abandon { q with pending := (q.pending.remove id).2 } id e
    · rw [cancel_not_waiting waits]
      split
      · dsimp only
        split <;> exact counter_abandon q id e
      · exact Nat.le_refl _
  | setBackground enabled =>
    show q.counter e ≤ (q.setBackground enabled).counter e
    unfold setBackground
    split
    · exact Nat.le_refl _
    · dsimp only
      split
      · exact Nat.le_refl _
      · rw [counter_publish]
        refine counter_abandonAll (counter_abandonAll ?_ _) _
        exact Nat.le_refl _
  | pause =>
    show q.counter e ≤ q.pause.counter e
    unfold pause
    split <;> exact Nat.le_refl _
  | resume =>
    show q.counter e ≤ q.resume.counter e
    unfold resume
    split <;> exact Nat.le_refl _
  | stop =>
    show q.counter e ≤ q.stop.counter e
    cases on : q.stopped with
    | true => exact Nat.le_of_eq (by rw [stop_again on])
    | false =>
      rw [stop_eq on]
      refine counter_abandonAll (counter_abandonAll ?_ q.waiting) q.running
      exact Nat.le_refl _

end ReadAhead.Queue
