import Mathlib.Tactic.ByContra
import SpriteVM.Proofs.Config.Documented

namespace SpriteVM

namespace Value

/-- The value stands somewhere in this one, or is it. -/
inductive Holds : Value → Value → Prop
  | self (v : Value) : Holds v v
  | item {items : List Value} {w u : Value} (hw : w ∈ items) (h : Holds w u) : Holds (.list items) u
  | key {entries : List (Value × Value)} {e : Value × Value} {u : Value} (he : e ∈ entries)
    (h : Holds e.1 u) : Holds (.map entries) u
  | value {entries : List (Value × Value)} {e : Value × Value} {u : Value} (he : e ∈ entries)
    (h : Holds e.2 u) : Holds (.map entries) u

/-- An integer stands in it that has more digits than are written out. -/
def HoldsLong (v : Value) : Prop :=
  ∃ w n, v.Holds w ∧ w.StandsFor n ∧ IntegerText.writable n = false

variable {v w u : Value} {n : Int} {name entry : String} {entries inner : List (Value × Value)}

theorem Holds.trans (h : v.Holds w) (h' : w.Holds u) : v.Holds u := by
  induction h with
  | self => exact h'
  | item hw _ ih => exact .item hw (ih h')
  | key he _ ih => exact .key he (ih h')
  | value he _ ih => exact .value he (ih h')

theorem HoldsLong.mono (h : v.Holds w) (hw : w.HoldsLong) : v.HoldsLong := by
  obtain ⟨u, n, hu, hn, hlong⟩ := hw
  exact ⟨u, n, h.trans hu, hn, hlong⟩

theorem StandsFor.holdsLong (h : v.StandsFor n) (hn : IntegerText.writable n = false) : v.HoldsLong :=
  ⟨v, n, .self v, h, hn⟩

theorem mem_of_field? (h : v ∈ field? name entries) : ∃ e ∈ entries, e.2 = v := by
  induction entries with
  | nil => cases h
  | cons e rest ih =>
    obtain ⟨k, w⟩ := e
    have hrest (h : v ∈ field? name rest) : ∃ e ∈ (k, w) :: rest, e.2 = v := by
      obtain ⟨e, he, hv⟩ := ih h
      exact ⟨e, List.mem_cons_of_mem _ he, hv⟩
    cases k with
    | text s =>
      unfold field? at h
      split at h
      · obtain rfl := Option.some.inj h
        exact ⟨_, List.mem_cons_self, rfl⟩
      · exact hrest h
    | _ => exact hrest h

theorem holds_of_field? (h : v ∈ field? name entries) : (map entries).Holds v := by
  obtain ⟨e, he, rfl⟩ := mem_of_field? h
  exact .value he (.self _)

theorem holds_of_entry? (h : v ∈ entry? name entry entries) : (map entries).Holds v := by
  unfold entry? at h
  split at h
  · next hfield => exact (holds_of_field? hfield).trans (holds_of_field? h)
  · cases h

mutual

/-- What cannot be written out holds an integer that is too long. -/
theorem holdsLong_of_unwritable (v : Value) (h : v.writable = false) : v.HoldsLong := by
  cases v with
  | int n =>
    rw [writable] at h
    exact (StandsFor.int n).holdsLong h
  | list items =>
    rw [writable] at h
    obtain ⟨w, hw, hlong⟩ := holdsLong_of_items items h
    exact .mono (.item hw (.self w)) hlong
  | map entries =>
    rw [writable] at h
    obtain ⟨e, he, hlong | hlong⟩ := holdsLong_of_entries entries h
    · exact .mono (.key he (.self _)) hlong
    · exact .mono (.value he (.self _)) hlong
  | _ => contradiction

theorem holdsLong_of_items : (items : List Value) → writableAll items = false →
    ∃ w ∈ items, w.HoldsLong
  | [], h => by cases h
  | v :: rest, h => by
    rw [writableAll, Bool.and_eq_false_iff] at h
    obtain h | h := h
    · exact ⟨v, List.mem_cons_self, holdsLong_of_unwritable v h⟩
    · obtain ⟨w, hw, hlong⟩ := holdsLong_of_items rest h
      exact ⟨w, List.mem_cons_of_mem _ hw, hlong⟩

theorem holdsLong_of_entries : (entries : List (Value × Value)) → writableEntries entries = false →
    ∃ e ∈ entries, e.1.HoldsLong ∨ e.2.HoldsLong
  | [], h => by cases h
  | (k, v) :: rest, h => by
    rw [writableEntries, Bool.and_eq_false_iff, Bool.and_eq_false_iff] at h
    obtain (h | h) | h := h
    · exact ⟨(k, v), List.mem_cons_self, .inl (holdsLong_of_unwritable k h)⟩
    · exact ⟨(k, v), List.mem_cons_self, .inr (holdsLong_of_unwritable v h)⟩
    · obtain ⟨e, he, hlong⟩ := holdsLong_of_entries rest h
      exact ⟨e, List.mem_cons_of_mem _ he, hlong⟩

end

theorem holdsLong_int (h : (int n).HoldsLong) : IntegerText.writable n = false := by
  obtain ⟨w, m, hw, hm, hlong⟩ := h
  cases hw
  cases hm
  exact hlong

end Value

section Answers

variable {ε α β : Type} {e : ε}

theorem except_bind_eq_error {act : Except ε α} {next : α → Except ε β} :
    (act >>= next) = .error e ↔ act = .error e ∨ ∃ a, act = .ok a ∧ next a = .error e := by
  cases act with
  | ok a => simp [bind, Except.bind]
  | error f => simp [bind, Except.bind]

theorem except_map_eq_error {act : Except ε α} {g : α → β} :
    act.map g = .error e ↔ act = .error e := by
  cases act with
  | ok a => simp [Except.map]
  | error f => simp [Except.map]

/-- The first item that is not answered is the reason for all of them. -/
theorem mapM_error {f : α → Except ε β} {xs : List α} (h : xs.mapM f = .error e) :
    ∃ x ∈ xs, f x = .error e := by
  induction xs with
  | nil => cases h
  | cons x xs ih =>
    rw [List.mapM_cons] at h
    obtain h | ⟨y, -, h⟩ := except_bind_eq_error.1 h
    · exact ⟨x, List.mem_cons_self, h⟩
    · obtain h | ⟨ys, -, h⟩ := except_bind_eq_error.1 h
      · obtain ⟨w, hw, hf⟩ := ih h
        exact ⟨w, List.mem_cons_of_mem _ hw, hf⟩
      · cases h

end Answers

namespace Settings

open Value (field? entry?)

/-- Why a value is refused: for what it is, or because an integer in it is too long to be shown. -/
def Reported (v : Value) (f : ConfigFault) : Prop :=
  f.kind = .configuration ∨ f = .tooLong ∧ v.HoldsLong

variable {α : Type} {v w : Value} {o : Option Value} {f : ConfigFault} {n : Int}
  {name entry : String} {entries : List (Value × Value)}

theorem Reported.mono (h : v.Holds w) (hf : Reported w f) : Reported v f :=
  hf.imp_right fun hlong => ⟨hlong.1, .mono h hlong.2⟩

/-- What is said of an integer is said of the value that it was read from. -/
theorem Reported.read (h : v.StandsFor n) (hf : Reported (.int n) f) : Reported v f :=
  hf.imp_right fun hlong => ⟨hlong.1, h.holdsLong (Value.holdsLong_int hlong.2)⟩

theorem Reported.of_field (h : ∃ v ∈ field? name entries, Reported v f) :
    Reported (.map entries) f := by
  obtain ⟨v, hv, hf⟩ := h
  exact hf.mono (Value.holds_of_field? hv)

theorem Reported.of_entry (h : ∃ v ∈ field? entry (within name entries), Reported v f) :
    Reported (.map entries) f := by
  obtain ⟨v, hv, hf⟩ := h
  rw [field?_within] at hv
  exact hf.mono (Value.holds_of_entry? hv)

theorem shown_error {render : Value → String} (h : shown render v = .error f) :
    f = .tooLong ∧ v.HoldsLong := by
  unfold shown at h
  split at h
  · cases h
  · next hw =>
    obtain rfl := Except.error.inj h
    exact ⟨rfl, Value.holdsLong_of_unwritable v (Bool.not_eq_true _ ▸ hw)⟩

/-- A report that shows a value. -/
theorem reported_of_shown {render : Value → String} {report : String → ConfigFault}
    (hreport : ∀ text, (report text).kind = .configuration)
    (h : (do throw (report (← shown render v)) : Except ConfigFault α) = .error f) :
    Reported v f := by
  obtain h | ⟨text, -, h⟩ := except_bind_eq_error.1 h
  · exact .inr (shown_error h)
  · obtain rfl := Except.error.inj h
    exact .inl (hreport text)

theorem integer_error (h : integer v = .error f) : Reported v f := by
  have hbad (h : badInteger v = .error f) : Reported v f := reported_of_shown (fun _ => rfl) h
  unfold integer at h
  split at h
  · cases h
  · split at h
    · cases h
    · exact hbad h
  · exact hbad h

theorem optionalInteger_error (h : optionalInteger o = .error f) : ∃ v ∈ o, Reported v f := by
  unfold optionalInteger at h
  split at h
  · cases h
  · cases h
  · exact ⟨_, rfl, integer_error (except_map_eq_error.1 h)⟩

theorem positive_error {usual : Int} (hu : 0 < usual) (h : positive name o usual = .error f) :
    ∃ v ∈ o, Reported v f := by
  unfold positive at h
  cases o with
  | none =>
    rw [Option.getD_none, integer_eq_ok.2 (.int usual), except_ok_bind, if_pos hu] at h
    cases h
  | some v =>
    refine ⟨v, rfl, ?_⟩
    obtain h | ⟨n, hn, h⟩ := except_bind_eq_error.1 h
    · exact integer_error h
    · split at h
      · cases h
      · exact (reported_of_shown (fun _ => rfl) h).read (integer_eq_ok.1 hn)

theorem switch_error (h : switch name o = .error f) : ∃ v ∈ o, Reported v f := by
  unfold switch at h
  split at h
  · cases h
  · cases h
  · cases h
  · exact ⟨_, rfl, reported_of_shown (fun _ => rfl) h⟩

theorem keyNumber_error (h : keyNumber v = .error f) : Reported v f := by
  obtain h | ⟨n, hn, h⟩ := except_bind_eq_error.1 h
  · exact integer_error h
  · split at h
    · cases h
    · exact (reported_of_shown (fun _ => rfl) h).read (integer_eq_ok.1 hn)

theorem keyList_error (h : keyList o = .error f) : ∃ v ∈ o, Reported v f := by
  cases o with
  | none => cases h
  | some v =>
    refine ⟨v, rfl, ?_⟩
    unfold keyList at h
    dsimp only at h
    rw [Option.getD_some] at h
    split at h
    · cases h
    · split at h
      · obtain ⟨w, hw, hf⟩ := mapM_error h
        exact (keyNumber_error hf).mono (.item hw (.self w))
      · obtain rfl := Except.error.inj h
        exact .inl rfl

theorem pathText_error (h : pathText o = .error f) : ∃ v ∈ o, Reported v f := by
  unfold pathText at h
  split at h
  · cases h
  · cases h
  · exact ⟨_, rfl, .inr (shown_error (except_map_eq_error.1 h))⟩

theorem sectionOf_error (h : sectionOf entries name = .error f) : f.kind = .configuration := by
  unfold sectionOf at h
  dsimp only at h
  split at h
  · cases h
  · split at h
    · cases h
    · obtain rfl := Except.error.inj h
      rfl

theorem ofEntries_error (h : ofEntries entries = .error f) : Reported (.map entries) f := by
  have hten : (0 : Int) < 10 := by decide
  have hsixty : (0 : Int) < 60 := by decide
  unfold ofEntries at h
  obtain h | ⟨machine, hmachine, h⟩ := except_bind_eq_error.1 h
  · exact .inl (sectionOf_error h)
  obtain ⟨-, rfl⟩ := sectionOf_eq_ok.1 hmachine
  obtain h | ⟨seed, -, h⟩ := except_bind_eq_error.1 h
  · exact .of_entry (optionalInteger_error h)
  obtain h | ⟨program, hprogram, h⟩ := except_bind_eq_error.1 h
  · exact .inl (sectionOf_error h)
  obtain ⟨-, rfl⟩ := sectionOf_eq_ok.1 hprogram
  obtain h | ⟨path, -, h⟩ := except_bind_eq_error.1 h
  · exact .of_entry (pathText_error h)
  obtain h | ⟨host, hhost, h⟩ := except_bind_eq_error.1 h
  · exact .inl (sectionOf_error h)
  obtain ⟨-, rfl⟩ := sectionOf_eq_ok.1 hhost
  obtain h | ⟨cycles, -, h⟩ := except_bind_eq_error.1 h
  · exact .of_entry (positive_error hten h)
  obtain h | ⟨rate, -, h⟩ := except_bind_eq_error.1 h
  · exact .of_entry (positive_error hsixty h)
  obtain h | ⟨frames, -, h⟩ := except_bind_eq_error.1 h
  · exact .of_entry (optionalInteger_error h)
  obtain h | ⟨keys, -, h⟩ := except_bind_eq_error.1 h
  · exact .of_field (keyList_error h)
  obtain h | ⟨trace, -, h⟩ := except_bind_eq_error.1 h
  · exact .of_field (switch_error h)
  · cases h

theorem ofValue_error (h : ofValue v = .error f) : Reported v f := by
  cases v with
  | null => cases h
  | map entries => exact ofEntries_error h
  | _ =>
    obtain rfl := Except.error.inj h
    exact .inl rfl

/-- Where a section or the keys count as nothing, they are left out or of the kind they should be. -/
def Clear (v : Value) : Prop :=
  ∀ entries, v = .map entries →
    (∀ name ∈ sectionNames, ∀ w ∈ field? name entries, w.isEmpty = true →
      w = .null ∨ ∃ inner, w = .map inner) ∧
    ∀ w ∈ field? "keys" entries, w.isEmpty = true → w = .null ∨ ∃ items, w = .list items

/-- All that is documented is accepted, unless the path is too long to be written out. -/
theorem Documented.taken (h : Documented v) (hshort : ¬ v.HoldsLong) : Taken v := by
  obtain rfl | ⟨entries, rfl, hfits⟩ := h
  · exact .inl rfl
  · refine .inr ⟨entries, rfl, { hfits with sections := ?_, keys := ?_ }, fun w hw => ?_⟩
    · intro name hname w hw
      refine (hfits.sections name hname w hw).imp_left ?_
      rintro rfl
      rfl
    · intro w hw
      refine (hfits.keys w hw).imp_left ?_
      rintro rfl
      rfl
    · by_contra hlong
      have hholds := Value.holdsLong_of_unwritable w (Bool.not_eq_true _ ▸ hlong)
      exact hshort (.mono (Value.holds_of_entry? hw) hholds)

/-- What is accepted is documented where nothing is taken for another kind of value. -/
theorem Taken.documented (h : Taken v) (hclear : Clear v) : Documented v := by
  obtain rfl | ⟨entries, rfl, hfits, -⟩ := h
  · exact .inl rfl
  · obtain ⟨hsections, hkeys⟩ := hclear entries rfl
    refine .inr ⟨entries, rfl, { hfits with sections := ?_, keys := ?_ }⟩
    · intro name hname w hw
      obtain hempty | hmap := hfits.sections name hname w hw
      · exact hsections name hname w hw hempty
      · exact .inr hmap
    · intro w hw
      obtain hempty | hlist := hfits.keys w hw
      · obtain hnull | ⟨items, rfl⟩ := hkeys w hw hempty
        · exact .inl hnull
        · obtain rfl := List.isEmpty_iff.1 hempty
          exact .inr ⟨[], rfl, nofun⟩
      · exact .inr hlist

/-- The configurations that are accepted, beside those that are documented: accepted is also what
counts as nothing and is of another kind, and not what holds integers too long to be written out. -/
theorem ofValue_accepts (v : Value) :
    ((∃ s, ofValue v = .ok s) ↔ Taken v) ∧
      (Documented v → ¬ v.HoldsLong → ∃ s, ofValue v = .ok s) ∧
      (∀ s, ofValue v = .ok s → Clear v → Documented v) ∧
      ∀ f, ofValue v = .error f → f.kind = .configuration ∨ f = .tooLong ∧ v.HoldsLong := by
  refine ⟨ofValue_isOk, fun h hshort => ofValue_isOk.2 (h.taken hshort), fun s hs hclear => ?_,
    fun f hf => ofValue_error hf⟩
  have htaken : Taken v := ofValue_isOk.1 ⟨s, hs⟩
  exact htaken.documented hclear

/-- A number is no list of keys, but zero is accepted for one. -/
theorem ofValue_accepts_zero :
    ofValue (.map [(.text "keys", .int 0)]) = .ok standard ∧
      ¬ Documented (.map [(.text "keys", .int 0)]) := by
  refine ⟨rfl, fun h => ?_⟩
  obtain h | ⟨entries, h, hfits⟩ := h
  · cases h
  · obtain rfl := Value.map.inj h
    obtain hnull | ⟨items, hlist, -⟩ := hfits.keys (.int 0) rfl
    · cases hnull
    · cases hlist

end Settings

end SpriteVM
