import InlineRepl.Lookup.Interpreter
import Mathlib.Data.List.DropRight
import Mathlib.Data.List.Induction

/-!
# What a probe answers

A probe keeps the interpreter that it has found until it is configured anew. What it answers is
read off its history here: the configuration is the last one given, and what is known is what the
first resolution since then has found that has found anything.

Results:
* `resolveBy_known`, `resolveBy_chosen`, `resolveBy_unknown`: when a resolution makes its lookup.
* `Op`, `after`: histories of a probe.
* `override_after`, `searchPath_after`, `resolved_after`: the state of a probe, by its history.
* `answer_chosen`, `answer_unchosen`: what a resolution answers, and whether it makes its lookup, by
  the history.
-/

namespace InlineRepl.Probe

variable {m : Type → Type} [Monad m] {probe : Probe} {override : Option Path} {p : Path}
  {ops : List Op}

/-! ## One resolution -/

/-- The interpreter that runs an executable. -/
def interpreterOf (executable : Path) : Interpreter :=
  { command := interpreterCommand, executable }

/-- What is known needs no lookup. -/
theorem resolveBy_known [LawfulMonad m] (hr : probe.resolved = some p)
    (lookup : Option String → m (Option Path)) :
    probe.resolveBy lookup = pure (some (interpreterOf p), probe) := by
  obtain ⟨override, searchPath, resolved⟩ := probe
  obtain rfl : resolved = some p := hr
  exact pure_bind _ _

/-- A configured interpreter needs no lookup. -/
theorem resolveBy_chosen [LawfulMonad m] (hr : probe.resolved = none)
    (hc : chosen? probe.override = some p) (lookup : Option String → m (Option Path)) :
    probe.resolveBy lookup = pure (some (interpreterOf p), { probe with resolved := some p }) := by
  unfold resolveBy executableBy
  rw [hr, hc]
  exact pure_bind _ _

/-- Where nothing is known, the lookup is made, and what it finds is kept. -/
theorem resolveBy_unknown (hr : probe.resolved = none) (hc : chosen? probe.override = none)
    (lookup : Option String → m (Option Path)) :
    probe.resolveBy lookup =
      lookup probe.searchPath >>= fun answer =>
        pure (answer.map interpreterOf, { probe with resolved := answer }) := by
  unfold resolveBy executableBy
  rw [hr, hc]
  rfl

/-- What a resolution finds: what is known, or what is configured, or what the lookup answers. -/
theorem resolve_eq (probe : Probe) (lookup : Option String → Option Path) :
    probe.resolve lookup =
      let resolved := probe.resolved.or ((chosen? probe.override).or (lookup probe.searchPath))
      (resolved.map interpreterOf, { probe with resolved }) := by
  unfold resolve resolveBy executableBy
  cases probe.resolved with
  | some p => rfl
  | none => cases chosen? probe.override <;> rfl

/-! ## Histories -/

/-- What is done with a probe. Each resolution brings its own lookup. -/
inductive Op where
  | setOverride (override : Option Path)
  | setSearchPath (searchPath : String)
  | resolve (lookup : Option String → Option Path)

namespace Op

/-- The interpreter that is configured. -/
def override? : Op → Option (Option Path)
  | .setOverride override => some override
  | _ => none

/-- The search path that is configured. -/
def searchPath? : Op → Option String
  | .setSearchPath searchPath => some searchPath
  | _ => none

/-- The lookup that a resolution brings. -/
def lookup? : Op → Option (Option String → Option Path)
  | .resolve lookup => some lookup
  | _ => none

end Op

/-- Does one thing. -/
def act (probe : Probe) : Op → Probe
  | .setOverride override => probe.setOverride override
  | .setSearchPath searchPath => probe.setSearchPath searchPath
  | .resolve lookup => (probe.resolve lookup).2

theorem act_resolve (probe : Probe) (lookup : Option String → Option Path) :
    probe.act (.resolve lookup) =
      { probe with
        resolved := probe.resolved.or
          ((chosen? probe.override).or (lookup probe.searchPath)) } :=
  congrArg Prod.snd (resolve_eq probe lookup)

/-- Does one thing after the other. -/
def after (probe : Probe) (ops : List Op) : Probe :=
  ops.foldl act probe

theorem after_concat (probe : Probe) (ops : List Op) (op : Op) :
    probe.after (ops ++ [op]) = (probe.after ops).act op :=
  List.foldl_concat act probe op ops

/-- The interpreter configured last, `initial` where none has been. -/
def lastOverride (initial : Option Path) (ops : List Op) : Option Path :=
  (ops.filterMap Op.override?).getLast?.getD initial

/-- The search path configured last, `initial` where none has been. -/
def lastSearchPath (initial : Option String) (ops : List Op) : Option String :=
  (ops.filterMap Op.searchPath?).getLast?.or initial

/-- The lookups of the resolutions since the last configuration. -/
def recent (ops : List Op) : List (Option String → Option Path) :=
  (ops.rtakeWhile fun op => op.lookup?.isSome).filterMap Op.lookup?

/-- What the first of these lookups finds that finds anything. All of them have the same search
path, and all before the one that finds something are made. -/
def firstFound (searchPath : Option String) (ops : List Op) : Option Path :=
  (recent ops).findSome? fun lookup => lookup (lastSearchPath searchPath ops)

theorem recent_concat (ops : List Op) (op : Op) :
    recent (ops ++ [op]) =
      match op.lookup? with
      | some lookup => recent ops ++ [lookup]
      | none => [] := by
  unfold recent
  rw [List.rtakeWhile_concat]
  cases hl : op.lookup? with
  | none => rfl
  | some lookup => simp [hl]

/-! ## The state of a probe, by its history -/

/-- What the last item yields that yields anything. -/
theorem getLast?_filterMap_concat {α β : Type} (f : α → Option β) (xs : List α) (x : α) :
    ((xs ++ [x]).filterMap f).getLast? = (f x).or (xs.filterMap f).getLast? := by
  rw [List.filterMap_append, List.getLast?_append]
  cases hx : f x <;> simp [hx]

theorem lastOverride_concat (initial : Option Path) (ops : List Op) (op : Op) :
    lastOverride initial (ops ++ [op]) = op.override?.getD (lastOverride initial ops) := by
  unfold lastOverride
  rw [getLast?_filterMap_concat]
  cases op.override? <;> rfl

theorem lastSearchPath_concat (initial : Option String) (ops : List Op) (op : Op) :
    lastSearchPath initial (ops ++ [op]) = op.searchPath?.or (lastSearchPath initial ops) := by
  unfold lastSearchPath
  rw [getLast?_filterMap_concat, Option.or_assoc]

theorem override_after (override : Option Path) (searchPath : Option String) (ops : List Op) :
    (after { override, searchPath } ops).override = lastOverride override ops := by
  induction ops using List.reverseRecOn with
  | nil => rfl
  | append_singleton ops op ih =>
    rw [after_concat, lastOverride_concat]
    cases op with
    | setOverride override => rfl
    | setSearchPath searchPath => exact ih
    | resolve lookup =>
      rw [act_resolve]
      exact ih

theorem searchPath_after (override : Option Path) (searchPath : Option String) (ops : List Op) :
    (after { override, searchPath } ops).searchPath = lastSearchPath searchPath ops := by
  induction ops using List.reverseRecOn with
  | nil => rfl
  | append_singleton ops op ih =>
    rw [after_concat, lastSearchPath_concat]
    cases op with
    | setOverride override => exact ih
    | setSearchPath searchPath => rfl
    | resolve lookup =>
      rw [act_resolve]
      exact ih

/-- **What is known** is what the first resolution since the last configuration has found that has
found anything: a resolution finds what is configured, or what its lookup answers. -/
theorem resolved_after (override : Option Path) (searchPath : Option String) (ops : List Op) :
    (after { override, searchPath } ops).resolved =
      (recent ops).findSome? fun lookup =>
        (chosen? (lastOverride override ops)).or (lookup (lastSearchPath searchPath ops)) := by
  induction ops using List.reverseRecOn with
  | nil => rfl
  | append_singleton ops op ih =>
    rw [after_concat, recent_concat, lastOverride_concat, lastSearchPath_concat]
    cases op with
    | setOverride override => rfl
    | setSearchPath searchPath => rfl
    | resolve lookup =>
      rw [act_resolve, override_after, searchPath_after, ih]
      show _ = (recent ops ++ [lookup]).findSome? _
      rw [List.findSome?_append]
      simp [Op.override?, Op.searchPath?]

section Answers

variable {searchPath : Option String}

/-- With an interpreter configured, a probe knows this one or none. -/
theorem resolved_after_chosen (hc : chosen? (lastOverride override ops) = some p) :
    (after { override, searchPath } ops).resolved = none ∨
      (after { override, searchPath } ops).resolved = some p := by
  rw [resolved_after, hc]
  simp only [Option.some_or]
  cases recent ops with
  | nil => exact .inl rfl
  | cons lookup more => exact .inr rfl

/-- With none configured, a probe knows what the lookups have found. -/
theorem resolved_after_unchosen (hc : chosen? (lastOverride override ops) = none) :
    (after { override, searchPath } ops).resolved = firstFound searchPath ops := by
  rw [resolved_after, hc]
  simp only [Option.none_or]
  rfl

/-! ## What a resolution answers, by the history -/

/-- **A resolution answers what is configured**, and makes no lookup for it. -/
theorem answer_chosen [LawfulMonad m] (hc : chosen? (lastOverride override ops) = some p)
    (lookup : Option String → m (Option Path)) :
    Prod.fst <$> (after { override, searchPath } ops).resolveBy lookup =
      pure (some (interpreterOf p)) := by
  have hchosen := override_after override searchPath ops ▸ hc
  rcases resolved_after_chosen hc with hr | hr
  · rw [resolveBy_chosen hr hchosen, map_pure]
  · rw [resolveBy_known hr, map_pure]

/-- **With nothing configured**, it answers what was found first since the last configuration, and
makes no lookup for it either. Only where nothing was found does it make its lookup, on the search
path configured last, and answers what that finds. -/
theorem answer_unchosen [LawfulMonad m] (hc : chosen? (lastOverride override ops) = none)
    (lookup : Option String → m (Option Path)) :
    Prod.fst <$> (after { override, searchPath } ops).resolveBy lookup =
      match firstFound searchPath ops with
      | some p => pure (some (interpreterOf p))
      | none => Option.map interpreterOf <$> lookup (lastSearchPath searchPath ops) := by
  have hchosen := override_after override searchPath ops ▸ hc
  rw [← resolved_after_unchosen hc]
  cases hf : (after { override, searchPath } ops).resolved with
  | some p => rw [resolveBy_known hf, map_pure]
  | none =>
    rw [resolveBy_unknown hf hchosen, searchPath_after, map_bind, ← bind_pure_comp]
    simp only [map_pure]

/-- A resolution whose lookup only answers. -/
theorem resolve_chosen (hc : chosen? (lastOverride override ops) = some p)
    (lookup : Option String → Option Path) :
    ((after { override, searchPath } ops).resolve lookup).1 = some (interpreterOf p) :=
  congrArg Id.run (answer_chosen (m := Id) hc fun searchPath => pure (lookup searchPath))

end Answers

end InlineRepl.Probe
