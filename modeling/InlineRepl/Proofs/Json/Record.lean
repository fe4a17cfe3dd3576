import InlineRepl.Proofs.Json.Reading
import Mathlib.Data.List.Nodup
import Mathlib.Data.List.Perm.Basic

/-!
# Records are read by their keys

A record that is read from an object depends on what stands under its keys, not on where it stands:
as long as no key is given twice, the chosen members look up what the object does
(`Record.select_lookup`). Members of other names do not count, and the order of the members does not
matter (`Record.lookup_perm`).

Results:
* `text?_str`, `word32?_nat`, `word64?_nat`: plain values read what was written.
* `Raw.isStrict_obj`: when an object passes the stricter reading.
* `Record.select_eq_some_iff`, `Record.select_eq_none`: which members are chosen, and when.
* `Record.select_read`, `Record.ofRaw_order`: reading a record from a written object.
-/

namespace InlineRepl.Json

namespace Record

/-- Members as they are read, under the text of their keys. -/
def read (members : List (String × Json)) : List (String × Raw) :=
  members.map fun m => (m.1, Raw.ofJson m.2)

theorem named_ofMembers : ∀ members : List (String × Json),
    named (Raw.ofMembers members) = some (read members)
  | [] => rfl
  | (key, value) :: members => by
    simp only [Raw.ofMembers, named, joinUnits_chars, named_ofMembers members, Option.bind_eq_bind,
      Option.bind_some, String.ofList_toList]
    rfl

end Record

namespace Raw

/-! ## Plain values -/

@[simp] theorem text?_str (s : String) : (ofJson (.str s)).text? = some s := by
  show (joinUnits (s.toList.map .char)).map String.ofList = some s
  rw [joinUnits_chars, Option.map_some, String.ofList_toList]

@[simp] theorem nat?_nat (n : Nat) : (ofJson (.nat n)).nat? = some n :=
  Numeral.toNat?_ofNat n

@[simp] theorem word32?_nat (n : UInt32) : (ofJson (.nat n.toNat)).word32? = some n := by
  unfold word32?
  rw [nat?_nat]
  dsimp only
  rw [if_pos (show n.toNat < Nat.pow 2 32 from n.toNat_lt), UInt32.ofNat_toNat]

@[simp] theorem word64?_nat (n : UInt64) : (ofJson (.nat n.toNat)).word64? = some n := by
  unfold word64?
  rw [nat?_nat]
  dsimp only
  rw [if_pos (show n.toNat < Nat.pow 2 64 from n.toNat_lt), UInt64.ofNat_toNat]

/-! ## The stricter reading -/

@[simp] theorem depth_str (s : String) : (ofJson (.str s)).depth = 0 :=
  rfl

@[simp] theorem depth_nat (n : Nat) : (ofJson (.nat n)).depth = 0 :=
  rfl

@[simp] theorem isPlain_str (s : String) : (ofJson (.str s)).isPlain = true := by
  show (joinUnits (s.toList.map .char)).isSome = true
  rw [joinUnits_chars, Option.isSome_some]

/-- A number of at most 64 bits is a double. -/
theorem isPlain_nat {n : Nat} (h : n < Nat.pow 2 64) : (ofJson (.nat n)).isPlain = true :=
  Numeral.fitsDouble_ofNat h

theorem isPlain_word32 (n : UInt32) : (ofJson (.nat n.toNat)).isPlain = true :=
  isPlain_nat (Nat.lt_trans n.toNat_lt (by decide))

theorem isPlain_word64 (n : UInt64) : (ofJson (.nat n.toNat)).isPlain = true :=
  isPlain_nat n.toNat_lt

/-- Members are plain if and only if their values are, once every key has a text. -/
theorem membersArePlain_iff : ∀ {members : List (List Unit16 × Raw)} {named : List (String × Raw)},
    Record.named members = some named →
      (membersArePlain members = true ↔ ∀ m ∈ named, m.2.isPlain = true)
  | [], named, h => by
    obtain rfl := Option.some.inj h
    exact iff_of_true rfl fun _ hm => absurd hm List.not_mem_nil
  | (key, value) :: members, named, h => by
    simp only [Record.named, Option.bind_eq_bind, Option.bind_eq_some_iff] at h
    obtain ⟨name, hname, rest, hrest, h⟩ := h
    obtain rfl := Option.some.inj h
    rw [membersArePlain, hname, Option.isSome_some, Bool.true_and, Bool.and_eq_true,
      membersArePlain_iff hrest, List.forall_mem_cons]

theorem membersDepth_ofMembers {limit : Nat} : ∀ {members : List (String × Json)},
    (∀ m ∈ members, (ofJson m.2).depth ≤ limit) → membersDepth (ofMembers members) ≤ limit
  | [], _ => Nat.zero_le _
  | (key, value) :: members, h => by
    have hvalue := h (key, value) List.mem_cons_self
    have hmembers := membersDepth_ofMembers fun m hm => h m (List.mem_cons_of_mem _ hm)
    exact Nat.max_le.mpr ⟨hvalue, hmembers⟩

/-- An object of plain members is plain. -/
theorem isPlain_obj {members : List (String × Json)}
    (h : ∀ m ∈ members, (ofJson m.2).isPlain = true) : (ofJson (.obj members)).isPlain = true :=
  (membersArePlain_iff (Record.named_ofMembers members)).mpr (List.forall_mem_map.mpr h)

/-- An object is one level deeper than its members. -/
theorem depth_obj {members : List (String × Json)} {limit : Nat}
    (h : ∀ m ∈ members, (ofJson m.2).depth ≤ limit) : (ofJson (.obj members)).depth ≤ limit + 1 :=
  Nat.succ_le_succ (membersDepth_ofMembers h)

/-- An object of plain members that are nested little passes the stricter reading. -/
theorem isStrict_obj {members : List (String × Json)}
    (hp : ∀ m ∈ members, (ofJson m.2).isPlain = true) (hd : ∀ m ∈ members, (ofJson m.2).depth ≤ 1) :
    (ofJson (.obj members)).isStrict = true := by
  have hdepth : (ofJson (.obj members)).depth ≤ depthLimit :=
    Nat.le_trans (depth_obj hd) (by decide)
  unfold isStrict
  rw [isPlain_obj hp, decide_eq_true hdepth, Bool.and_self]

end Raw

namespace Record

/-! ## Looking up -/

section Lookup

variable {α : Type} {members : List (String × α)} {name : String} {value : α}

theorem lookup_eq_none (h : name ∉ members.map Prod.fst) : members.lookup name = none := by
  rw [List.lookup_eq_none_iff]
  intro m hm
  rw [bne_iff_ne]
  rintro rfl
  exact h (List.mem_map_of_mem hm)

theorem lookup_of_mem (hn : (members.map Prod.fst).Nodup) (h : (name, value) ∈ members) :
    members.lookup name = some value := by
  induction members with
  | nil => exact absurd h List.not_mem_nil
  | cons m members ih =>
    obtain ⟨key, first⟩ := m
    obtain ⟨hkey, hn⟩ := List.nodup_cons.mp hn
    rcases List.mem_cons.mp h with heq | hmem
    · obtain ⟨rfl, rfl⟩ := Prod.mk.inj heq
      exact List.lookup_cons_self
    · have hne : name ≠ key := by
        rintro rfl
        exact hkey (List.mem_map.mpr ⟨_, hmem, rfl⟩)
      rw [List.lookup_cons, beq_eq_false_iff_ne.mpr hne]
      exact ih hn hmem

/-- The order of the members does not matter to a look up. -/
theorem lookup_perm {order : List (String × α)} (hn : (members.map Prod.fst).Nodup)
    (hp : order.Perm members) (name : String) : order.lookup name = members.lookup name := by
  have hn' : (order.map Prod.fst).Nodup := (hp.map Prod.fst).nodup_iff.mpr hn
  by_cases h : name ∈ order.map Prod.fst
  · obtain ⟨⟨key, value⟩, hmem, rfl⟩ := List.mem_map.mp h
    rw [lookup_of_mem hn' hmem, lookup_of_mem hn (hp.mem_iff.mp hmem)]
  · have h' : name ∉ members.map Prod.fst := fun hm => h ((hp.map Prod.fst).mem_iff.mpr hm)
    rw [lookup_eq_none h, lookup_eq_none h']

end Lookup

/-! ## Choosing -/

variable {members : List (String × Raw)} {names : List String}

/-- **What is chosen are the members of the given names**, and none of these names may occur
twice. -/
theorem select_eq_some_iff : ∀ {members : List (String × Raw)} {record : Record},
    select names members = some record ↔
      record = members.filter (fun m => decide (m.1 ∈ names)) ∧ (record.map Prod.fst).Nodup
  | [], record => by
    refine ⟨fun h => ?_, fun h => congrArg some h.1.symm⟩
    obtain rfl := Option.some.inj h
    exact ⟨rfl, List.nodup_nil⟩
  | (key, value) :: members, record => by
    have ih : ∀ {record : Record}, select names members = some record ↔
        record = members.filter (fun m => decide (m.1 ∈ names)) ∧ (record.map Prod.fst).Nodup :=
      select_eq_some_iff
    rw [select, Option.bind_eq_bind, Option.bind_eq_some_iff]
    by_cases hkey : key ∈ names
    · rw [List.filter_cons_of_pos (by simpa using hkey)]
      constructor
      · rintro ⟨chosen, hc, h⟩
        rw [if_pos hkey] at h
        obtain ⟨rfl, hn⟩ := ih.mp hc
        split at h
        · cases h
        · rename_i hfresh
          obtain rfl := Option.some.inj h
          refine ⟨rfl, List.nodup_cons.mpr ⟨fun hmem => hfresh ?_, hn⟩⟩
          obtain ⟨⟨name, given⟩, hm, rfl⟩ := List.mem_map.mp hmem
          rw [lookup_of_mem hn hm, Option.isSome_some]
      · rintro ⟨rfl, hn⟩
        obtain ⟨hfresh, hn⟩ := List.nodup_cons.mp hn
        refine ⟨_, ih.mpr ⟨rfl, hn⟩, ?_⟩
        rw [if_pos hkey, lookup_eq_none hfresh]
        rfl
    · rw [List.filter_cons_of_neg (by simpa using hkey)]
      constructor
      · rintro ⟨chosen, hc, h⟩
        rw [if_neg hkey] at h
        obtain rfl := Option.some.inj h
        exact ih.mp hc
      · intro h
        exact ⟨record, ih.mpr h, if_neg hkey⟩

/-- Members of other names do not matter to a look up. -/
theorem lookup_filter {name : String} (h : name ∈ names) : ∀ members : List (String × Raw),
    (members.filter fun m => decide (m.1 ∈ names)).lookup name = members.lookup name
  | [] => rfl
  | (key, value) :: members => by
    by_cases hkey : key ∈ names
    · rw [List.filter_cons_of_pos (by simpa using hkey), List.lookup_cons, List.lookup_cons,
        lookup_filter h members]
    · have hne : name ≠ key := by
        rintro rfl
        exact hkey h
      rw [List.filter_cons_of_neg (by simpa using hkey), List.lookup_cons,
        beq_eq_false_iff_ne.mpr hne, lookup_filter h members]

/-- **What is chosen looks up what the object does**, if no key is given twice. -/
theorem select_lookup (names : List String) {members : List (String × Raw)}
    (hn : (members.map Prod.fst).Nodup) : ∃ record, select names members = some record ∧
      ∀ name ∈ names, record.lookup name = members.lookup name :=
  ⟨members.filter fun m => decide (m.1 ∈ names),
    select_eq_some_iff.mpr ⟨rfl, hn.sublist (List.filter_sublist.map Prod.fst)⟩,
    fun _ hname => lookup_filter hname members⟩

/-- **A name that occurs twice is a fault**, wherever the members of this name stand. -/
theorem select_eq_none {name : String} {value : Raw} {rest : List (String × Raw)}
    (hname : name ∈ names) (hp : members.Perm ((name, value) :: rest))
    (htwice : name ∈ rest.map Prod.fst) : select names members = none := by
  refine Option.eq_none_iff_forall_ne_some.mpr fun record hr => ?_
  obtain ⟨rfl, hn⟩ := select_eq_some_iff.mp hr
  have hfilter := (hp.filter fun m => decide (m.1 ∈ names)).map Prod.fst
  rw [List.filter_cons_of_pos (by simpa using hname)] at hfilter
  obtain ⟨hfresh, -⟩ := List.nodup_cons.mp (hfilter.nodup_iff.mp hn)
  obtain ⟨m, hm, rfl⟩ := List.mem_map.mp htwice
  exact hfresh (List.mem_map.mpr ⟨m, List.mem_filter.mpr ⟨hm, by simpa using hname⟩, rfl⟩)

/-! ## Written objects -/

theorem keys_read (members : List (String × Json)) :
    (read members).map Prod.fst = members.map Prod.fst := by
  unfold read
  rw [List.map_map]
  rfl

theorem lookup_read (name : String) : ∀ members : List (String × Json),
    (read members).lookup name = (members.lookup name).map Raw.ofJson
  | [] => rfl
  | (key, value) :: members => by
    show List.lookup name ((key, Raw.ofJson value) :: read members) = _
    rw [List.lookup_cons, List.lookup_cons, lookup_read name members]
    cases name == key <;> rfl

/-- **What is chosen from a written object looks up what was written**, in whatever order. -/
theorem select_read {members order : List (String × Json)} (hn : (members.map Prod.fst).Nodup)
    (ho : order.Perm members) (names : List String) :
    ∃ record, select names (read order) = some record ∧
      ∀ name ∈ names, record.lookup name = (members.lookup name).map Raw.ofJson := by
  have hread : ((read order).map Prod.fst).Nodup := by
    rw [keys_read]
    exact (ho.map Prod.fst).nodup_iff.mpr hn
  obtain ⟨record, hr, hl⟩ := select_lookup names hread
  refine ⟨record, hr, fun name hname => ?_⟩
  rw [hl name hname, lookup_read, lookup_perm hn ho]

/-- **Reading a record from a written object** that gives no key twice, in whatever order. -/
theorem ofRaw_order (members : List (String × Json)) {order : List (String × Json)}
    (hn : (members.map Prod.fst).Nodup) (ho : order.Perm members) (names : List String) :
    ∃ record, ofRaw names (Raw.ofJson (.obj order)) = some record ∧
      ∀ name ∈ names, record.lookup name = (members.lookup name).map Raw.ofJson := by
  obtain ⟨record, hr, hl⟩ := select_read hn ho names
  refine ⟨record, ?_, hl⟩
  show (named (Raw.ofMembers order)).bind (select names) = some record
  rw [named_ofMembers, Option.bind_some, hr]

/-- Reading a record from a written object that gives no key twice. -/
theorem ofRaw_obj (members : List (String × Json)) (hn : (members.map Prod.fst).Nodup)
    (names : List String) :
    ∃ record, ofRaw names (Raw.ofJson (.obj members)) = some record ∧
      ∀ name ∈ names, record.lookup name = (members.lookup name).map Raw.ofJson :=
  ofRaw_order members hn (.refl members) names

/-! ## Fields -/

section Fields

variable {α : Type} {record : Record} {name : String} {value : Raw} (read : Raw → Option α)

theorem required_eq (h : record.lookup name = some value) :
    record.required name read = read value := by
  unfold required
  rw [h, Option.bind_some]

end Fields

end Record

end InlineRepl.Json
