import InlineRepl.Proofs.Json.Record

/-!
# Records with other members

What a record needs of an object are the members that it was written with. `Record.Extends` allows
them in any order, each with a value as it may have been spelled, and other members beside them,
under names that are not known at that place; `Record.Repeats` has one of the written names a second
time. What is chosen from an extended record are its own members; from a repeating one nothing can
be chosen that includes the repeated name.

Results:
* `Raw.isPlain_iff_within`: what the stricter reading asks of the numbers of a value.
* `Record.Extends.select`, `Record.Repeats.select`: what is chosen from either.
-/

namespace InlineRepl.Json

/-! ## Values -/

namespace Raw

variable {p q : Numeral → Prop}

mutual

/-- Every number is as `p` says, and every string has a text. -/
def Within (p : Numeral → Prop) : Raw → Prop
  | .null => True
  | .bool _ => True
  | .number n => p n
  | .string units => (joinUnits units).isSome = true
  | .array items => ItemsWithin p items
  | .object members => MembersWithin p members

/-- `Within` of every item. -/
def ItemsWithin (p : Numeral → Prop) : List Raw → Prop
  | [] => True
  | item :: items => Within p item ∧ ItemsWithin p items

/-- `Within` of every member, its key included. -/
def MembersWithin (p : Numeral → Prop) : List (List Unit16 × Raw) → Prop
  | [] => True
  | (key, value) :: members =>
    (joinUnits key).isSome = true ∧ Within p value ∧ MembersWithin p members

end

mutual

theorem Within.mono (h : ∀ n, p n → q n) : ∀ {r : Raw}, r.Within p → r.Within q
  | .null, hr => hr
  | .bool _, hr => hr
  | .number n, hr => h n hr
  | .string _, hr => hr
  | .array _, hr => ItemsWithin.mono h hr
  | .object _, hr => MembersWithin.mono h hr

theorem ItemsWithin.mono (h : ∀ n, p n → q n) : ∀ {items : List Raw},
    ItemsWithin p items → ItemsWithin q items
  | [], hi => hi
  | _ :: _, ⟨hitem, hitems⟩ => ⟨Within.mono h hitem, ItemsWithin.mono h hitems⟩

theorem MembersWithin.mono (h : ∀ n, p n → q n) : ∀ {members : List (List Unit16 × Raw)},
    MembersWithin p members → MembersWithin q members
  | [], hm => hm
  | (_, _) :: _, ⟨hkey, hvalue, hmembers⟩ =>
    ⟨hkey, Within.mono h hvalue, MembersWithin.mono h hmembers⟩

end

mutual

/-- **A plain value is one whose numbers are doubles.** -/
theorem isPlain_iff_within : ∀ r : Raw,
    r.isPlain = true ↔ r.Within fun n => n.fitsDouble = true
  | .null => iff_of_true rfl trivial
  | .bool _ => iff_of_true rfl trivial
  | .number _ => Iff.rfl
  | .string _ => Iff.rfl
  | .array items => arePlain_iff_within items
  | .object members => membersArePlain_iff_within members

theorem arePlain_iff_within : ∀ items : List Raw,
    arePlain items = true ↔ ItemsWithin (fun n => n.fitsDouble = true) items
  | [] => iff_of_true rfl trivial
  | item :: items => by
    rw [arePlain, Bool.and_eq_true, isPlain_iff_within item, arePlain_iff_within items]
    rfl

theorem membersArePlain_iff_within : ∀ members : List (List Unit16 × Raw),
    membersArePlain members = true ↔ MembersWithin (fun n => n.fitsDouble = true) members
  | [] => iff_of_true rfl trivial
  | (key, value) :: members => by
    rw [membersArePlain, Bool.and_eq_true, Bool.and_eq_true, isPlain_iff_within value,
      membersArePlain_iff_within members, and_assoc]
    rfl

end

/-- An object whose members, under the texts of their keys, are as `form` says. -/
def IsObject (form : List (String × Raw) → Prop) (r : Raw) : Prop :=
  ∃ members named, r = .object members ∧ Record.named members = some named ∧ form named

theorem IsObject.isPlain {form : List (String × Raw) → Prop} {r : Raw} (h : r.IsObject form)
    (hform : ∀ named, form named → ∀ m ∈ named, m.2.isPlain = true) : r.isPlain = true := by
  obtain ⟨members, named, rfl, hnamed, hmembers⟩ := h
  exact (membersArePlain_iff hnamed).mpr (hform named hmembers)

end Raw

/-- A number as it was written, or a text however it is spelled. -/
def IsSpelling : Json → Raw → Prop
  | .nat n, r => r = Raw.ofJson (.nat n)
  | .str s, r => r.text? = some s
  | _, _ => False

/-- A number or a text as it was written, or an object that `form` allows for its members. -/
def Nested (form : List (String × Json) → List (String × Raw) → Prop) : Json → Raw → Prop
  | .obj written, r => r.IsObject (form written)
  | value, r => IsSpelling value r

theorem IsSpelling.isPlain {value : Json} {r : Raw} (h : IsSpelling value r)
    (hvalue : (Raw.ofJson value).isPlain = true) : r.isPlain = true := by
  cases value with
  | nat n =>
    obtain rfl := h
    exact hvalue
  | str s =>
    cases r with
    | string units =>
      obtain ⟨cs, hcs, -⟩ := Option.map_eq_some_iff.mp h
      exact Option.isSome_of_eq_some hcs
    | _ => exact absurd h nofun
  | _ => exact absurd h nofun

/-! ## Records -/

namespace Record

section Spec

variable (reads : Json → Raw → Prop) (others : Raw → Prop) (known : List String)

/-- The members that were `written`, in any order, with values that `reads` allows for them, and
members under names that are not `known`, with values that `others` allows. -/
def Extends (written : List (String × Json)) (members : List (String × Raw)) : Prop :=
  ∃ own extra, members.Perm (own ++ extra) ∧
    List.Forall₂ (fun m w => m.1 = w.1 ∧ reads w.2 m.2) own written ∧
      ∀ m ∈ extra, m.1 ∉ known ∧ others m.2

/-- An extended record and a further member under one of the written names. -/
def Repeats (written : List (String × Json)) (members : List (String × Raw)) : Prop :=
  ∃ name value rest, members.Perm ((name, value) :: rest) ∧
    Extends reads others known written rest ∧ name ∈ written.map Prod.fst

end Spec

variable {reads : Json → Raw → Prop} {others : Raw → Prop} {known names : List String}
  {written : List (String × Json)} {own members rest : List (String × Raw)}

/-- Values read for written ones stand under the same names. -/
theorem keys_eq (h : List.Forall₂ (fun m w => m.1 = w.1 ∧ reads w.2 m.2) own written) :
    own.map Prod.fst = written.map Prod.fst := by
  induction h with
  | nil => rfl
  | cons hm _ ih => exact congrArg₂ List.cons hm.1 ih

theorem exists_read (h : List.Forall₂ (fun m w => m.1 = w.1 ∧ reads w.2 m.2) own written)
    {w : String × Json} (hw : w ∈ written) : ∃ r, (w.1, r) ∈ own ∧ reads w.2 r := by
  induction h with
  | nil => exact absurd hw List.not_mem_nil
  | @cons m _ _ _ hm _ ih =>
    rcases List.mem_cons.mp hw with rfl | hw
    · exact ⟨m.2, List.mem_cons.mpr (.inl (Prod.ext hm.1.symm rfl)), hm.2⟩
    · obtain ⟨r, hr, hread⟩ := ih hw
      exact ⟨r, List.mem_cons_of_mem _ hr, hread⟩

theorem exists_written (h : List.Forall₂ (fun m w => m.1 = w.1 ∧ reads w.2 m.2) own written)
    {m : String × Raw} (hm : m ∈ own) : ∃ w ∈ written, reads w.2 m.2 := by
  induction h with
  | nil => exact absurd hm List.not_mem_nil
  | cons hfirst _ ih =>
    rcases List.mem_cons.mp hm with rfl | hm
    · exact ⟨_, List.mem_cons_self, hfirst.2⟩
    · obtain ⟨w, hw, hread⟩ := ih hm
      exact ⟨w, List.mem_cons_of_mem _ hw, hread⟩

/-- The members of an extended record are plain, if its own and the other ones are. -/
theorem Extends.isPlain (h : Extends reads others known written members)
    (hreads : ∀ w ∈ written, ∀ r, reads w.2 r → r.isPlain = true)
    (hothers : ∀ r, others r → r.isPlain = true) : ∀ m ∈ members, m.2.isPlain = true := by
  obtain ⟨own, extra, hp, hown, hextra⟩ := h
  intro m hm
  rcases List.mem_append.mp (hp.mem_iff.mp hm) with hm | hm
  · obtain ⟨w, hw, hread⟩ := exists_written hown hm
    exact hreads w hw _ hread
  · exact hothers _ (hextra m hm).2

/-- What is chosen depends on the members of the given names alone. -/
theorem Extends.select_of_perm (h : Extends reads others known written rest)
    (hn : (written.map Prod.fst).Nodup) (hknown : ∀ name ∈ names, name ∈ known)
    (hp : (members.filter fun m => decide (m.1 ∈ names)).Perm
      (rest.filter fun m => decide (m.1 ∈ names))) :
    ∃ record, select names members = some record ∧
      (∀ w ∈ written, w.1 ∈ names → ∃ r, record.lookup w.1 = some r ∧ reads w.2 r) ∧
      ∀ name ∈ names, name ∉ written.map Prod.fst → record.lookup name = none := by
  obtain ⟨own, extra, hrest, hown, hextra⟩ := h
  have hkeys : (own.map Prod.fst).Nodup := by rwa [keys_eq hown]
  have hnone : (extra.filter fun m => decide (m.1 ∈ names)) = [] :=
    List.filter_eq_nil_iff.mpr fun m hm hname =>
      (hextra m hm).1 (hknown _ (of_decide_eq_true hname))
  have hchosen : (members.filter fun m => decide (m.1 ∈ names)).Perm
      (own.filter fun m => decide (m.1 ∈ names)) := by
    have hfilter := hp.trans (hrest.filter fun m => decide (m.1 ∈ names))
    rwa [List.filter_append, hnone, List.append_nil] at hfilter
  have hown' : ((own.filter fun m => decide (m.1 ∈ names)).map Prod.fst).Nodup :=
    hkeys.sublist (List.filter_sublist.map Prod.fst)
  have hlookup : ∀ name ∈ names,
      (members.filter fun m => decide (m.1 ∈ names)).lookup name = own.lookup name := by
    intro name hname
    rw [lookup_perm hown' hchosen, lookup_filter hname]
  refine ⟨_, select_eq_some_iff.mpr ⟨rfl, (hchosen.map Prod.fst).nodup_iff.mpr hown'⟩, ?_, ?_⟩
  · intro w hw hname
    obtain ⟨r, hr, hread⟩ := exists_read hown hw
    exact ⟨r, (hlookup _ hname).trans (lookup_of_mem hkeys hr), hread⟩
  · intro name hname hfresh
    rw [hlookup name hname]
    refine lookup_eq_none ?_
    rwa [keys_eq hown]

/-- **What is chosen from an extended record are its own members.** -/
theorem Extends.select (h : Extends reads others known written members)
    (hn : (written.map Prod.fst).Nodup) (names : List String)
    (hknown : ∀ name ∈ names, name ∈ known) :
    ∃ record, select names members = some record ∧
      (∀ w ∈ written, w.1 ∈ names → ∃ r, record.lookup w.1 = some r ∧ reads w.2 r) ∧
      ∀ name ∈ names, name ∉ written.map Prod.fst → record.lookup name = none :=
  h.select_of_perm hn hknown (.refl _)

/-- **From a repeating record the repeated name cannot be chosen**, and any other name can be as if
nothing were repeated. -/
theorem Repeats.select (h : Repeats reads others known written members)
    (hn : (written.map Prod.fst).Nodup) :
    ∃ name ∈ written.map Prod.fst,
      (∀ names, name ∈ names → select names members = none) ∧
      ∀ names : List String, name ∉ names → (∀ name ∈ names, name ∈ known) →
        ∃ record, select names members = some record ∧
          ∀ w ∈ written, w.1 ∈ names → ∃ r, record.lookup w.1 = some r ∧ reads w.2 r := by
  obtain ⟨name, value, rest, hp, hrest, hname⟩ := h
  refine ⟨name, hname, fun names hmem => ?_, fun names hmem hknown => ?_⟩
  · obtain ⟨own, extra, hparts, hown, -⟩ := hrest
    refine select_eq_none hmem hp ?_
    rw [(hparts.map Prod.fst).mem_iff, List.map_append, List.mem_append, keys_eq hown]
    exact .inl hname
  · have hfilter := hp.filter fun m => decide (m.1 ∈ names)
    rw [List.filter_cons_of_neg (by simpa using hmem)] at hfilter
    obtain ⟨record, hr, hown, -⟩ := hrest.select_of_perm hn hknown hfilter
    exact ⟨record, hr, hown⟩

end Record

end InlineRepl.Json
