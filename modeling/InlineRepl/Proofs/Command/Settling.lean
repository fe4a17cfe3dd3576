import InlineRepl.Proofs.Command.Shown

/-!
# Waiting for responses

An evaluation that has been sent meets one moment after the other until a popup is shown, the limit
is reached, or a moment is quiet at which the host may rest. A popup comes first: it is looked for
before every moment, so none is met behind it.

`met` is what a wait meets of the moments that lie before it. It says everything about the wait: the
host at its end has taken the events among them, and `verdict` tells from the host and the last
moment how the wait has ended.

Results:
* `settle_eq`: how a wait ends, and with which host.
* `met_prefix`, `unmet_behind`: what is met is the front of what lies before, no popup has been
  shown before any of it, and nothing is met behind the limit.
* `verdict_met_eq_timedOut_iff`, `no_limit_of_waiting`: when a wait times out, and when it goes on.
-/

namespace InlineRepl

namespace Moment

/-- The event of a moment. -/
def event? : Moment → Option SessionEvent
  | .event happened => some happened
  | _ => none

/-- The events among moments. -/
def events (moments : List (Nat × Moment)) : List SessionEvent :=
  moments.filterMap fun entry => entry.2.event?

/-- **Every schedule has a limit.** -/
theorem limit_mem_schedule (patience limit now : Nat) (story : List (Nat × SessionEvent)) :
    ∃ time, (time, .limit) ∈ schedule patience limit now story := by
  induction story generalizing now with
  | nil =>
    unfold schedule
    split
    · exact ⟨now, List.mem_singleton_self _⟩
    · exact ⟨limit, by simp⟩
  | cons entry story ih =>
    obtain ⟨time, hmem⟩ := ih (max now entry.1)
    unfold schedule
    dsimp only
    split
    · exact ⟨now, List.mem_singleton_self _⟩
    split
    · exact ⟨limit, by simp⟩
    split
    · exact ⟨time, List.mem_cons_of_mem _ (List.mem_cons_of_mem _ hmem)⟩
    · exact ⟨time, List.mem_cons_of_mem _ hmem⟩

end Moment

namespace Evaluate

open Moment (events)

variable {screen : Screen} {host last : Host} {time : Nat} {entry : Nat × Moment}
  {moments front back : List (Nat × Moment)}

/-! ## What a wait looks at -/

theorem firstPopup_terminal (screen : Screen) (host : Host) :
    (screen.terminal host).firstPopup = host.popups.head?.map Popup.header := by
  unfold Terminal.firstPopup Screen.terminal
  rw [Terminal.popups_ofCalls]
  rfl

theorem hasPopup_iff : hasPopup screen host = true ↔ host.popups ≠ [] := by
  unfold hasPopup
  rw [firstPopup_terminal]
  simp

theorem hasPopup_eq_false_iff : hasPopup screen host = false ↔ host.popups = [] := by
  rw [← Bool.not_eq_true, hasPopup_iff, not_not]

theorem hasResponse_iff : hasResponse screen host = true ↔ host.changes ≠ [] := by
  unfold hasResponse Screen.terminal
  rw [Terminal.responses_ofCalls, decide_eq_true_eq, List.length_pos_iff]
  rfl

/-! ## What a wait meets -/

/-- What a wait meets of the moments that lie before it. -/
def met (screen : Screen) (host : Host) : List (Nat × Moment) → List (Nat × Moment)
  | [] => []
  | (next, moment) :: moments =>
    if hasPopup screen host then []
    else
      (next, moment) ::
        match moment with
        | .limit => []
        | .quiet => if restful screen host then [] else met screen host moments
        | .event event => met screen (host.handleEvent event) moments

/-- How a wait ends that has met `seen`, with the host at its end. -/
def verdict (screen : Screen) (last : Host) (seen : List (Nat × Moment)) : Verdict :=
  if hasPopup screen last then .settled
  else
    match seen.getLast?.map Prod.snd with
    | some .limit => if hasResponse screen last then .settled else .timedOut
    | some .quiet => if restful screen last then .settled else .waiting
    | _ => .waiting

/-- The time of the last moment, or else the time before it. -/
def endOf (time : Nat) (seen : List (Nat × Moment)) : Nat :=
  (seen.getLast?.map Prod.fst).getD time

theorem endOf_cons (time : Nat) (entry : Nat × Moment) (seen : List (Nat × Moment)) :
    endOf time (entry :: seen) = endOf entry.1 seen := by
  cases seen with
  | nil => rfl
  | cons => unfold endOf; rw [List.getLast?_cons_cons]; rfl

theorem verdict_popup (h : hasPopup screen last = true) : verdict screen last moments = .settled :=
  if_pos h

/-- A moment that does not end a wait leaves how it ends to those behind it. -/
theorem verdict_cons {seen : List (Nat × Moment)}
    (goesOn : seen = [] → verdict screen last [entry] = verdict screen last []) :
    verdict screen last (entry :: seen) = verdict screen last seen := by
  cases seen with
  | nil => exact goesOn rfl
  | cons second seen =>
    unfold verdict
    rw [List.getLast?_cons_cons]

/-- **How a wait ends**, and with which host. -/
theorem settle_eq (screen : Screen) (moments : List (Nat × Moment)) (host : Host) (time : Nat) :
    settle screen host time moments =
      (verdict screen (host.hear (events (met screen host moments))) (met screen host moments),
        host.hear (events (met screen host moments)), endOf time (met screen host moments)) := by
  induction moments generalizing host time with
  | nil => rfl
  | cons entry moments ih =>
    obtain ⟨next, moment⟩ := entry
    unfold settle met
    by_cases hshown : hasPopup screen host = true
    · rw [if_pos hshown, if_pos hshown]
      exact congrArg (fun ending => (ending, host, time)) (verdict_popup hshown).symm
    rw [if_neg hshown, if_neg hshown]
    cases moment with
    | limit =>
      have hend : verdict screen host [(next, .limit)] =
          if hasResponse screen host then .settled else .timedOut := if_neg hshown
      exact congrArg (fun ending => (ending, host, next)) hend.symm
    | quiet =>
      dsimp only
      by_cases hrest : restful screen host = true
      · rw [if_pos hrest, if_pos hrest]
        have hend : verdict screen host [(next, .quiet)] = .settled :=
          (if_neg hshown).trans (if_pos hrest)
        exact congrArg (fun ending => (ending, host, next)) hend.symm
      · rw [if_neg hrest, if_neg hrest, ih, endOf_cons]
        have hevents : events ((next, .quiet) :: met screen host moments) =
            events (met screen host moments) := rfl
        rw [hevents, verdict_cons]
        intro hnil
        rw [hnil]
        exact ((if_neg hshown).trans (if_neg hrest)).trans (if_neg hshown).symm
    | event event =>
      dsimp only
      rw [ih, endOf_cons]
      have hevents : events ((next, .event event) :: met screen (host.handleEvent event) moments) =
          event :: events (met screen (host.handleEvent event) moments) := rfl
      rw [hevents, Host.hear_cons, verdict_cons]
      exact fun _ => rfl

/-- Behind a popup nothing is met. -/
theorem met_of_popup (h : hasPopup screen host = true) (moments : List (Nat × Moment)) :
    met screen host moments = [] := by
  cases moments with
  | nil => rfl
  | cons => exact if_pos h

/-- What is met is the front of what lies before. -/
theorem met_prefix (screen : Screen) (host : Host) (moments : List (Nat × Moment)) :
    met screen host moments <+: moments := by
  induction moments generalizing host with
  | nil => exact List.prefix_rfl
  | cons entry moments ih =>
    obtain ⟨next, moment⟩ := entry
    unfold met
    split
    · exact List.nil_prefix
    refine List.prefix_cons_iff.mpr (.inr ⟨_, rfl, ?_⟩)
    cases moment with
    | limit => exact List.nil_prefix
    | quiet =>
      dsimp only
      split
      · exact List.nil_prefix
      · exact ih host
    | event event => exact ih (host.handleEvent event)

/-- **A popup ends the wait**: none has been shown before any moment that is met. Nothing is met
behind the limit. -/
theorem unmet_behind (h : met screen host moments = front ++ entry :: back) :
    (host.hear (events front)).popups = [] ∧ (entry.2 = .limit → back = []) := by
  induction moments generalizing host front with
  | nil => exact absurd h (by simp [met])
  | cons first moments ih =>
    obtain ⟨next, moment⟩ := first
    unfold met at h
    split at h
    · exact absurd h (by simp)
    rename_i hshown
    have hnone : host.popups = [] :=
      hasPopup_eq_false_iff.mp (Bool.eq_false_iff.mpr hshown)
    cases front with
    | nil =>
      obtain ⟨rfl, hback⟩ := List.cons.inj h
      refine ⟨hnone, ?_⟩
      rintro rfl
      exact hback.symm
    | cons other front =>
      obtain ⟨rfl, hback⟩ := List.cons.inj h
      cases moment with
      | limit => exact absurd hback (by simp)
      | quiet =>
        dsimp only at hback
        split at hback
        · exact absurd hback (by simp)
        · have hrest := ih hback
          exact hrest
      | event event =>
        have hrest : (((host.handleEvent event).hear (events front)).popups = []) ∧ _ := ih hback
        exact hrest

/-- The limit is met last. -/
theorem limit_last (h : (time, .limit) ∈ met screen host moments) :
    (met screen host moments).getLast?.map Prod.snd = some .limit := by
  obtain ⟨front, back, hsplit⟩ := List.append_of_mem h
  obtain ⟨-, hlast⟩ := unmet_behind hsplit
  rw [hsplit, hlast rfl]
  simp

/-- **A wait times out** if the limit is reached with nothing to show. -/
theorem verdict_met_eq_timedOut_iff (screen : Screen) (host : Host)
    (moments : List (Nat × Moment)) :
    let seen := met screen host moments
    verdict screen last seen = .timedOut ↔
      last.popups = [] ∧ last.changes = [] ∧ ∃ time, (time, .limit) ∈ seen := by
  intro seen
  have hlimit : (∃ time, (time, .limit) ∈ seen) ↔
      seen.getLast?.map Prod.snd = some .limit := by
    constructor
    · rintro ⟨time, hmem⟩
      exact limit_last hmem
    · intro hlast
      obtain ⟨⟨time, moment⟩, hentry, hmoment⟩ := Option.map_eq_some_iff.mp hlast
      obtain rfl : moment = .limit := hmoment
      exact ⟨time, List.mem_of_getLast? hentry⟩
  have hunshown : last.popups = [] ↔ hasPopup screen last = false := hasPopup_eq_false_iff.symm
  rw [hlimit, hunshown]
  unfold verdict
  by_cases hshown : hasPopup screen last = true
  · rw [if_pos hshown, hshown]
    exact iff_of_false nofun fun h => absurd h.1 nofun
  rw [if_neg hshown, Bool.eq_false_iff.mpr hshown]
  split
  · rename_i hlast
    by_cases hsome : hasResponse screen last = true
    · rw [if_pos hsome]
      exact iff_of_false nofun fun h => hasResponse_iff.mp hsome h.2.1
    · rw [if_neg hsome]
      exact iff_of_true rfl ⟨rfl, not_not.mp fun hne => hsome (hasResponse_iff.mpr hne), hlast⟩
  · rename_i hlast
    refine iff_of_false ?_ fun h => ?_
    · split <;> nofun
    · rw [hlast] at h
      exact absurd h.2.2 nofun
  · rename_i hlast _
    exact iff_of_false nofun fun h => hlast h.2.2

/-- A wait that goes on has met everything. -/
theorem met_of_waiting (h : (settle screen host time moments).1 = .waiting) :
    met screen host moments = moments := by
  induction moments generalizing host time with
  | nil => rfl
  | cons entry moments ih =>
    obtain ⟨next, moment⟩ := entry
    unfold settle at h
    unfold met
    by_cases hshown : hasPopup screen host = true
    · rw [if_pos hshown] at h
      cases h
    rw [if_neg hshown] at h ⊢
    cases moment with
    | limit =>
      dsimp only at h
      split at h <;> cases h
    | quiet =>
      dsimp only at h ⊢
      by_cases hrest : restful screen host = true
      · rw [if_pos hrest] at h
        cases h
      · rw [if_neg hrest] at h ⊢
        rw [ih h]
    | event event =>
      exact congrArg _ (ih h)

/-- **A wait goes on only until its limit comes.** -/
theorem no_limit_of_waiting (h : (settle screen host time moments).1 = .waiting) :
    ∀ limit, (limit, .limit) ∉ moments := by
  intro limit hmem
  rw [← met_of_waiting h] at hmem
  have hlast := limit_last hmem
  rw [settle_eq] at h
  unfold verdict at h
  rw [hlast] at h
  dsimp only at h
  split at h
  · cases h
  · split at h <;> cases h

end Evaluate

end InlineRepl
