import InlineRepl.Proofs.Host.Drawing
import Mathlib.Data.List.FinRange
import Mathlib.Logic.Equiv.Basic

/-!
# Out-of-order responses converge

Responses name no request and come in any order. What a terminal shows in the end depends on the
order of those that meet and on nothing else: two results for one line of a document, or two values
of one watch. However the others are moved about, the board and the count of what has come are the
same, and every line shows the last result that was drawn on it.

Results:
* `Reorders.filter_perm`, `Reorders.filter_eq`: what a reordering does to the items of a kind.
* `get?_live`, `value?_live`, `responses_live`: what a line and a watch show after a life, and what
  has been counted.
* `responses_converge`: all of this, for every two lives of a host.
-/

namespace InlineRepl

/-! ## Reorderings -/

section Reorders

variable {α : Type} {meet : α → α → Prop} {xs ys : List α} {chosen : α → Bool}

/-- **The items of one row in the order of another**, where items that meet stay in their order:
each position has a place of its own, which holds the same item. -/
def Reorders (meet : α → α → Prop) (xs ys : List α) : Prop :=
  ∃ place : Fin xs.length ≃ Fin ys.length, (∀ i, ys[place i] = xs[i]) ∧
    ∀ i j, i < j → meet xs[i] xs[j] → place i < place j

/-- The positions of the items that are chosen, in order. -/
def positions (chosen : α → Bool) (xs : List α) : List (Fin xs.length) :=
  (List.finRange xs.length).filter fun i => chosen xs[i]

theorem mem_positions {i : Fin xs.length} : i ∈ positions chosen xs ↔ chosen xs[i] = true := by
  simp [positions]

theorem increasing_positions (chosen : α → Bool) (xs : List α) :
    (positions chosen xs).Pairwise (· < ·) :=
  (List.pairwise_lt_finRange _).filter _

theorem map_positions (chosen : α → Bool) (xs : List α) :
    (positions chosen xs).map (fun i => xs[i]) = xs.filter chosen := by
  have hall : (List.finRange xs.length).map (fun i => xs[i]) = xs := List.map_getElem_finRange xs
  calc (positions chosen xs).map (fun i => xs[i])
      = ((List.finRange xs.length).map fun i => xs[i]).filter chosen := List.filter_map.symm
    _ = xs.filter chosen := by rw [hall]

/-- The places of the chosen items are their positions in the other row. -/
theorem places_perm (place : Fin xs.length ≃ Fin ys.length) (same : ∀ i, ys[place i] = xs[i])
    (chosen : α → Bool) : ((positions chosen xs).map place).Perm (positions chosen ys) := by
  have hnodup : ∀ zs : List α, (positions chosen zs).Nodup := fun zs =>
    (increasing_positions chosen zs).imp fun h => Fin.ne_of_lt h
  refine (List.perm_ext_iff_of_nodup ((hnodup xs).map place.injective) (hnodup ys)).mpr fun k => ?_
  obtain ⟨i, rfl⟩ := place.surjective k
  rw [List.mem_map_of_injective place.injective, mem_positions, mem_positions, same]

theorem map_places (place : Fin xs.length ≃ Fin ys.length) (same : ∀ i, ys[place i] = xs[i])
    (chosen : α → Bool) :
    ((positions chosen xs).map place).map (fun k => ys[k]) = xs.filter chosen := by
  rw [List.map_map, ← map_positions]
  exact List.map_congr_left fun i _ => same i

/-- **A reordering moves the items of a kind about**, and loses none. -/
theorem Reorders.filter_perm (h : Reorders meet xs ys) (chosen : α → Bool) :
    (xs.filter chosen).Perm (ys.filter chosen) := by
  obtain ⟨place, same, -⟩ := h
  rw [← map_places place same, ← map_positions]
  exact (places_perm place same chosen).map _

/-- **Items of a kind that all meet** stay as they are. -/
theorem Reorders.filter_eq (h : Reorders meet xs ys)
    (all : ∀ a b, chosen a = true → chosen b = true → meet a b) :
    xs.filter chosen = ys.filter chosen := by
  obtain ⟨place, same, ordered⟩ := h
  have hincreasing : ((positions chosen xs).map place).Pairwise (· < ·) := by
    refine List.pairwise_map.mpr ((increasing_positions chosen xs).imp_of_mem fun hi hj hij => ?_)
    exact ordered _ _ hij (all _ _ (mem_positions.mp hi) (mem_positions.mp hj))
  have hplaces : (positions chosen xs).map place = positions chosen ys :=
    (places_perm place same chosen).eq_of_pairwise
      (fun _ _ _ _ hab hba => absurd (Fin.lt_trans hab hba) (Fin.lt_irrefl _))
      hincreasing (increasing_positions chosen ys)
  rw [← map_places place same, hplaces, map_positions]

/-- What is read from items that all meet is read in the same order. -/
theorem Reorders.filterMap_eq {β : Type} {read : α → Option β} (h : Reorders meet xs ys)
    (all : ∀ a b, (read a).isSome = true → (read b).isSome = true → meet a b) :
    xs.filterMap read = ys.filterMap read := by
  have hread : ∀ zs : List α,
      (zs.filter fun a => (read a).isSome).filterMap read = zs.filterMap read := by
    intro zs
    rw [List.filterMap_filter]
    refine List.filterMap_congr fun a _ => ?_
    cases read a <;> rfl
  rw [← hread xs, ← hread ys, h.filter_eq all]

end Reorders

/-! ## What a response shows -/

namespace Inbound

variable {doc : DocumentId} {line : UInt32} {watch : WatchId}

/-- What a response draws on a line of a document. It stands on the last line of its block. -/
def drawnOn (doc : DocumentId) (line : UInt32) (inbound : Inbound) :
    Option (Anchor × InlineResult) :=
  inbound.response.drawing?.bind fun drawing =>
    if inbound.origin = doc ∧ drawing.1.stop = line then
      some (Anchor.ofPlacement drawing.1, drawing.2)
    else none

/-- The value that a response gives to a watch of a document. -/
def valueFor (doc : DocumentId) (watch : WatchId) (inbound : Inbound) : Option String :=
  inbound.response.update?.bind fun update =>
    if inbound.origin = doc ∧ update.1 = watch then some update.2 else none

/-- The response draws something or sets a watch. -/
def shows (inbound : Inbound) : Bool :=
  inbound.response.drawing?.isSome || inbound.response.update?.isSome

/-- **Two responses meet**: they have the same origin, and are drawn on one line or set one
watch. -/
def Meets (a b : Inbound) : Prop :=
  a.origin = b.origin ∧
    ((∃ drawing ∈ a.response.drawing?, ∃ other ∈ b.response.drawing?,
        drawing.1.stop = other.1.stop) ∨
      ∃ update ∈ a.response.update?, ∃ other ∈ b.response.update?, update.1 = other.1)

instance : DecidableRel Meets := fun _ _ => inferInstanceAs (Decidable (_ ∧ (_ ∨ _)))

/-- What is read of something was there to be read, and fits. -/
theorem exists_of_isSome_bind {α β : Type} {fits : α → Prop} [DecidablePred fits] {read : α → β}
    {source : Option α}
    (h : (source.bind fun a => if fits a then some (read a) else none).isSome = true) :
    ∃ a ∈ source, fits a := by
  obtain ⟨_, h⟩ := Option.isSome_iff_exists.mp h
  obtain ⟨a, ha, h⟩ := Option.bind_eq_some_iff.mp h
  split at h
  · exact ⟨a, ha, ‹_›⟩
  · exact absurd h nofun

/-- Two responses that are drawn on one line meet. -/
theorem meets_of_drawnOn {a b : Inbound} (ha : (a.drawnOn doc line).isSome = true)
    (hb : (b.drawnOn doc line).isSome = true) : Meets a b := by
  obtain ⟨drawing, hd, rfl, rfl⟩ := exists_of_isSome_bind ha
  obtain ⟨other, he, ho, hline⟩ := exists_of_isSome_bind hb
  exact ⟨ho.symm, .inl ⟨drawing, hd, other, he, hline.symm⟩⟩

/-- Two responses that set one watch meet. -/
theorem meets_of_valueFor {a b : Inbound} (ha : (a.valueFor doc watch).isSome = true)
    (hb : (b.valueFor doc watch).isSome = true) : Meets a b := by
  obtain ⟨update, hu, rfl, rfl⟩ := exists_of_isSome_bind ha
  obtain ⟨other, he, ho, hwatch⟩ := exists_of_isSome_bind hb
  exact ⟨ho.symm, .inr ⟨update, hu, other, he, hwatch.symm⟩⟩

theorem update?_of_drawing? {response : Response} {drawing : Placement × InlineResult}
    (h : response.drawing? = some drawing) : response.update? = none := by
  cases response with
  | watch => exact absurd h nofun
  | result | success | exception | image | print => rfl

theorem isSome_change? (inbound : Inbound) : inbound.change?.isSome = inbound.shows := by
  unfold change? shows
  rcases inbound.response.drawing? with _ | _ <;> rcases inbound.response.update? with _ | _ <;> rfl

end Inbound

namespace Board

variable {doc : DocumentId} {line : UInt32} {watch : WatchId}

theorem or_of_some_if {β : Type} {c : Prop} [Decidable c] (new : β) (old : Option β) :
    (if c then some new else none).or old = if c then some new else old := by
  split <;> rfl

theorem get?_response (board : Board) (inbound : Inbound) :
    (board.changed inbound.change?.toList).get? doc line =
      (inbound.drawnOn doc line).or (board.get? doc line) := by
  unfold Inbound.change? Inbound.drawnOn
  rcases inbound.response.drawing? with _ | drawing
  · cases inbound.response.update? <;> rfl
  · exact get?_place.trans (or_of_some_if _ _).symm

theorem value?_response (board : Board) (inbound : Inbound) :
    (board.changed inbound.change?.toList).value? doc watch =
      (inbound.valueFor doc watch).or (board.value? doc watch) := by
  unfold Inbound.change? Inbound.valueFor
  cases hd : inbound.response.drawing? with
  | some drawing =>
    rw [Inbound.update?_of_drawing? hd]
    rfl
  | none =>
    rcases inbound.response.update? with _ | update
    · rfl
    · exact value?_setValue.trans (or_of_some_if _ _).symm

end Board

namespace Host

variable {host : Host} {doc : DocumentId} {line : UInt32} {watch : WatchId}

/-! ## What responses leave on a board -/

/-- What is read from a board that only responses change, where each of them replaces it or leaves
it: what the last one says that replaces it. -/
theorem read_responses {β : Type} (look : Board → Option β) {read : Inbound → Option β}
    (step : ∀ board inbound, look (board.changed inbound.change?.toList) =
      (read inbound).or (look board)) (inbounds : List Inbound) (board : Board) :
    look (board.changed (inbounds.filterMap Inbound.change?)) =
      (inbounds.filterMap read).getLast?.or (look board) := by
  induction inbounds using List.reverseRecOn with
  | nil => rfl
  | append_singleton inbounds inbound ih =>
    have hlast : (board.changed ((inbounds ++ [inbound]).filterMap Inbound.change?)) =
        (board.changed (inbounds.filterMap Inbound.change?)).changed inbound.change?.toList := by
      rw [List.filterMap_append, List.filterMap_eq_flatMap_toList _ [inbound],
        List.flatMap_singleton]
      exact List.foldl_append
    rw [hlast, step, ih, List.filterMap_append, List.filterMap_eq_flatMap_toList _ [inbound],
      List.flatMap_singleton, List.getLast?_append, Option.or_assoc]
    cases read inbound <;> rfl

/-- The terminal of a host: it has heard all that the host has told. -/
def terminal (host : Host) (echo color : Bool) : Terminal :=
  Terminal.ofCalls echo color host.calls

variable {echo color : Bool} {deeds others : List Deed}

theorem board_terminal (host : Host) (echo color : Bool) :
    (host.terminal echo color).board = ({} : Board).changed host.changes :=
  Terminal.board_ofCalls echo color host.calls

theorem responses_terminal (host : Host) (echo color : Bool) :
    (host.terminal echo color).responses = host.changes.length :=
  Terminal.responses_ofCalls echo color host.calls

theorem ordered_terminal (host : Host) (echo color : Bool) :
    (host.terminal echo color).board.Ordered := by
  rw [board_terminal]
  exact Board.ordered_changed Board.ordered_empty _

theorem board_live (served : host.serves deeds = true) :
    ((host.live deeds).terminal echo color).board =
      (host.terminal echo color).board.changed ((responses deeds).filterMap Inbound.change?) := by
  rw [board_terminal, board_terminal, changes_live deeds served]
  exact List.foldl_append

/-- **Every line shows the last result that was drawn on it**, or what it showed before. -/
theorem get?_live (served : host.serves deeds = true) :
    ((host.live deeds).terminal echo color).board.get? doc line =
      ((responses deeds).filterMap (Inbound.drawnOn doc line)).getLast?.or
        ((host.terminal echo color).board.get? doc line) := by
  rw [board_live served]
  exact read_responses (Board.get? · doc line) Board.get?_response _ _

/-- **Every watch shows the last value that it was given**, or what it showed before. -/
theorem value?_live (served : host.serves deeds = true) :
    ((host.live deeds).terminal echo color).board.value? doc watch =
      ((responses deeds).filterMap (Inbound.valueFor doc watch)).getLast?.or
        ((host.terminal echo color).board.value? doc watch) := by
  rw [board_live served]
  exact read_responses (Board.value? · doc watch) Board.value?_response _ _

/-- **The responses that show something are counted**, and no others. -/
theorem responses_live (served : host.serves deeds = true) :
    ((host.live deeds).terminal echo color).responses =
      (host.terminal echo color).responses + (responses deeds).countP Inbound.shows := by
  rw [responses_terminal, responses_terminal, changes_live deeds served, List.length_append,
    List.length_filterMap_eq_countP]
  simp only [Inbound.isSome_change?]

/-- **Out-of-order responses converge.** Take two lives of a host, in both of which every response
finds its session registered, and let the responses of one be those of the other in another order,
in which responses that meet have kept theirs.
* The boards that the terminal shows in the end are the same, and so are the counts.
* Each response that shows something is counted once. A picture that cannot be decoded, a print and
  a watch value without a watch show nothing.
* A line of a document shows the last result that was drawn on it, and a watch the last value that
  it was given; where there is none, it is what was there before. -/
theorem responses_converge (host : Host) (echo color : Bool) {deeds others : List Deed}
    (served : host.serves deeds = true) (servedToo : host.serves others = true)
    (reordered : Reorders Inbound.Meets (responses deeds) (responses others)) :
    let before := host.terminal echo color
    let after := (host.live deeds).terminal echo color
    let afterOthers := (host.live others).terminal echo color
    after.board = afterOthers.board ∧ after.responses = afterOthers.responses ∧
      after.responses = before.responses + (responses deeds).countP Inbound.shows ∧
      (∀ doc line, after.board.get? doc line =
        ((responses deeds).filterMap (Inbound.drawnOn doc line)).getLast?.or
          (before.board.get? doc line)) ∧
      ∀ doc watch, after.board.value? doc watch =
        ((responses deeds).filterMap (Inbound.valueFor doc watch)).getLast?.or
          (before.board.value? doc watch) := by
  intro before after afterOthers
  have hget : ∀ doc line, after.board.get? doc line = afterOthers.board.get? doc line := by
    intro doc line
    have hdrawn : (responses deeds).filterMap (Inbound.drawnOn doc line) = _ :=
      reordered.filterMap_eq fun _ _ => Inbound.meets_of_drawnOn
    exact (get?_live served).trans (hdrawn ▸ (get?_live servedToo).symm)
  have hvalue : ∀ doc watch, after.board.value? doc watch = afterOthers.board.value? doc watch := by
    intro doc watch
    have hset : (responses deeds).filterMap (Inbound.valueFor doc watch) = _ :=
      reordered.filterMap_eq fun _ _ => Inbound.meets_of_valueFor
    exact (value?_live served).trans (hset ▸ (value?_live servedToo).symm)
  refine ⟨(ordered_terminal _ echo color).ext (ordered_terminal _ echo color) hget hvalue, ?_,
    responses_live served, fun _ _ => get?_live served, fun _ _ => value?_live served⟩
  rw [responses_live served, responses_live servedToo, List.countP_eq_length_filter,
    List.countP_eq_length_filter, (reordered.filter_perm _).length_eq]

/-- A value and an exception for one line come in the same order in two lives of a host, with the
value of a watch and a picture that cannot be decoded about them. The exception stays on the line,
and three of the four responses count. -/
theorem settled_in_both_orders :
    let value : Inbound := ⟨⟨7⟩, .result "1" { start := 3, stop := 5 }⟩
    let watched : Inbound := ⟨⟨7⟩, .watch "2" { start := 3, stop := 5, watch := some ⟨"7-w0"⟩ }⟩
    let raised : Inbound := ⟨⟨7⟩, .exception "no" { start := 4, stop := 5 }⟩
    let picture : Inbound := ⟨⟨7⟩, .image "?" { start := 5, stop := 5 }⟩
    let connect : Deed :=
      .take (.tryConnect .furnished { origin := none, path := some ⟨"/work"⟩ })
    let arrival : Inbound → Deed := fun inbound => .take (.event ⟨⟨1⟩, .inbound inbound⟩)
    let host := start .fresh none none 0
    let deeds := connect :: [value, watched, raised, picture].map arrival
    let others := connect :: [value, picture, raised, watched].map arrival
    host.serves deeds = true ∧ host.serves others = true ∧
      Reorders Inbound.Meets (responses deeds) (responses others) ∧
      ((host.live deeds).terminal false false).board =
        ((host.live others).terminal false false).board ∧
      ((host.live deeds).terminal false false).board.get? ⟨7⟩ 5 =
        some (⟨5, 4⟩, .exception "no") ∧
      ((host.live deeds).terminal false false).responses = 3 := by
  intro value watched raised picture connect arrival host deeds others
  have served : host.serves deeds = true := by decide +kernel
  have servedToo : host.serves others = true := by decide +kernel
  have reordered : Reorders Inbound.Meets (responses deeds) (responses others) := by
    show Reorders Inbound.Meets [value, watched, raised, picture] [value, picture, raised, watched]
    exact ⟨Equiv.swap (1 : Fin 4) 3, by decide +kernel, by decide +kernel⟩
  obtain ⟨hboard, -, hcount, hlines, -⟩ :=
    responses_converge host false false served servedToo reordered
  exact ⟨served, servedToo, reordered, hboard, (hlines ⟨7⟩ 5).trans (by decide +kernel),
    hcount.trans (by decide +kernel)⟩

end Host

end InlineRepl
