import Mathlib.Tactic.SplitIfs
import SpriteVM.Proofs.Command.Arguments

namespace SpriteVM.Command

namespace Split

/-- The parts of `s` and then those of `p`. -/
def append (s p : Split) : Split := ⟨s.options ++ p.options, s.others ++ p.others⟩

def empty : Split := ⟨[], []⟩

variable {s p q q' : Split} {waiting : Option (OptionName × String)} {l l₁ l₂ : List String}

@[simp] theorem append_empty (s : Split) : s.append empty = s := by
  simp [append, empty]

theorem append_assoc (s p q : Split) : (s.append p).append q = s.append (p.append q) := by
  simp [append]

theorem append_addOption (s p : Split) (o : OptionName) (value : String) :
    (s.append p).addOption o value = s.append (p.addOption o value) := by
  simp [append, addOption]

theorem append_addOther (s p : Split) (arg : String) :
    (s.append p).addOther arg = s.append (p.addOther arg) := by
  simp [append, addOther]

/-- What comes of an argument does not depend on those before it. -/
theorem letters_append (cs : List Char) (s p : Split) :
    letters cs (s.append p) = (letters cs p).map (Prod.map id s.append) := by
  induction cs generalizing p with
  | nil => rfl
  | cons c cs ih =>
    unfold letters
    cases OptionName.short? c with
    | none => rfl
    | some o =>
      dsimp only
      rw [append_addOption, ih, append_addOption]
      split_ifs <;> rfl

theorem long_append (arg : String) (s p : Split) :
    long arg (s.append p) = (long arg p).map (Prod.map id s.append) := by
  unfold long
  dsimp only
  cases OptionName.long? _ with
  | none => rfl
  | some o =>
    dsimp only
    rw [append_addOption, append_addOption]
    split_ifs <;> rfl

theorem option_append (arg : String) (s p : Split) :
    option arg (s.append p) = (option arg p).map (Prod.map id s.append) := by
  unfold option
  split
  · exact long_append arg s p
  · exact letters_append _ s p

theorem all_append (waiting : Option (OptionName × String)) (l : List String) (s p : Split) :
    all waiting l (s.append p) = (all waiting l p).map s.append := by
  induction l generalizing waiting p with
  | nil => cases waiting <;> rfl
  | cons arg l ih =>
    cases waiting with
    | some w =>
      rw [all, all, append_addOption]
      exact ih none _
    | none =>
      rw [all, all, option_append, append_addOther, ih]
      split_ifs
      · simp [append, Except.map]
      · cases option arg p with
        | error f => rfl
        | ok r => exact ih r.1 r.2
      · rfl

/-- An option can stand behind these arguments: none of them still waits for its value, and no two
dashes have ended the options. -/
def admits : Option (OptionName × String) → List String → Bool
  | waiting, [] => waiting.isNone
  | some _, _ :: rest => admits none rest
  | none, arg :: rest =>
    if arg = "--" then false
    else if isOption arg then
      match option arg empty with
      | .ok (waiting, _) => admits waiting rest
      | .error _ => false
    else admits none rest

/-- Arguments that others can follow leave their parts, and the others come behind these. -/
theorem all_of_admits (h : admits waiting l₁ = true) :
    ∃ p, ∀ s l₂, all waiting (l₁ ++ l₂) s = all none l₂ (s.append p) := by
  induction l₁ generalizing waiting with
  | nil =>
    cases waiting with
    | some w => exact nomatch h
    | none => exact ⟨empty, fun s l₂ => by rw [append_empty, List.nil_append]⟩
  | cons arg l₁ ih =>
    cases waiting with
    | some w =>
      obtain ⟨p, hp⟩ := ih h
      refine ⟨(empty.addOption w.1 arg).append p, fun s l₂ => ?_⟩
      rw [← append_assoc, ← append_addOption, append_empty]
      exact hp _ l₂
    | none =>
      unfold admits at h
      by_cases hend : arg = "--"
      · rw [if_pos hend] at h
        contradiction
      · rw [if_neg hend] at h
        by_cases ho : isOption arg = true
        · rw [if_pos ho] at h
          cases hopt : option arg empty with
          | error f => simp [hopt] at h
          | ok r =>
            obtain ⟨w, q⟩ := r
            rw [hopt] at h
            obtain ⟨p, hp⟩ := ih h
            refine ⟨q.append p, fun s l₂ => ?_⟩
            have hs : option arg s = .ok (w, s.append q) := by
              rw [← append_empty s, option_append, hopt, append_empty]
              rfl
            rw [List.cons_append, all, if_neg hend, if_pos ho, hs, ← append_assoc]
            exact hp _ l₂
        · rw [if_neg ho] at h
          obtain ⟨p, hp⟩ := ih h
          refine ⟨(empty.addOther arg).append p, fun s l₂ => ?_⟩
          rw [List.cons_append, all, if_neg hend, if_neg ho, ← append_assoc, ← append_addOther,
            append_empty]
          exact hp _ l₂

theorem all_trace (l : List String) (s : Split) :
    all none ("--trace" :: l) s = all none l (s.addOption .trace "") := rfl

/-- The parts are the same but for one more option, which asks for a trace. -/
def Inserts (q q' : Split) : Prop :=
  ∃ before after, q.options = before ++ after ∧ q'.options = before ++ (.trace, "") :: after ∧
    q'.others = q.others

theorem all_insert (h : admits none l₁ = true) (hq : all none (l₁ ++ l₂) empty = .ok q) :
    ∃ q', all none (l₁ ++ "--trace" :: l₂) empty = .ok q' ∧ q.Inserts q' := by
  obtain ⟨p, hp⟩ := all_of_admits h
  have hrest (s : Split) : all none l₂ s = (all none l₂ empty).map s.append := by
    rw [← all_append, append_empty]
  rw [hp, hrest] at hq
  obtain ⟨r, hr, rfl⟩ := except_map_eq_ok.1 hq
  refine ⟨((empty.append p).addOption .trace "").append r, ?_, p.options, r.options, rfl, ?_, rfl⟩
  · rw [hp, all_trace, hrest, hr]
    rfl
  · simp [append, addOption, empty]

namespace Inserts

variable {o : OptionName}

theorem filter_eq (h : q.Inserts q') (ho : o ≠ .trace) :
    q'.options.filter (·.1 = o) = q.options.filter (·.1 = o) := by
  obtain ⟨before, after, hq, hq', -⟩ := h
  rw [hq, hq', List.filter_append, List.filter_append, List.filter_cons_of_neg]
  simpa using Ne.symm ho

theorem count_eq (h : q.Inserts q') (ho : o ≠ .trace) :
    Arguments.count q' o = Arguments.count q o := by
  rw [Arguments.count, Arguments.count, List.countP_eq_length_filter, List.countP_eq_length_filter,
    h.filter_eq ho]

theorem last_eq {α : Type} (h : q.Inserts q') (ho : o ≠ .trace)
    (read : String → Except ArgumentFault α) : Arguments.last q' o read = Arguments.last q o read := by
  rw [Arguments.last, Arguments.last, h.filter_eq ho]

theorem count_trace (h : q.Inserts q') : 0 < Arguments.count q' .trace := by
  obtain ⟨before, after, -, hq', -⟩ := h
  rw [Arguments.count, List.countP_pos_iff]
  exact ⟨(.trace, ""), by simp [hq'], by simp⟩

end Inserts

end Split

open Split

/-- The same arguments, and a trace. -/
def Arguments.traced (a : Arguments) : Arguments := { a with trace := true }

def Request.traced : Request → Request
  | run a => run a.traced
  | help => help

section

variable {fs : Files} {q q' : Split} {a : Arguments} {r : Request}

theorem Arguments.ofSplit_insert (h : q.Inserts q') (ha : ofSplit fs q = .ok a) :
    ofSplit fs q' = .ok a.traced := by
  have hothers : programOf fs q' = programOf fs q := by
    obtain ⟨before, after, -, -, ho⟩ := h
    rw [programOf, programOf, ho]
  unfold ofSplit at ha ⊢
  rw [hothers, h.last_eq (o := .config) (by decide), h.last_eq (o := .seed) (by decide),
    h.last_eq (o := .maxFrames) (by decide), h.last_eq (o := .cyclesPerFrame) (by decide),
    h.filter_eq (o := .key) (by decide), h.count_eq (o := .showDisplay) (by decide),
    h.count_eq (o := .verbose) (by decide), decide_eq_true h.count_trace]
  obtain ⟨program, hprogram, ha⟩ := except_bind_eq_ok.1 ha
  obtain ⟨config, hconfig, ha⟩ := except_bind_eq_ok.1 ha
  obtain ⟨seed, hseed, ha⟩ := except_bind_eq_ok.1 ha
  obtain ⟨maxFrames, hframes, ha⟩ := except_bind_eq_ok.1 ha
  obtain ⟨cycles, hcycles, ha⟩ := except_bind_eq_ok.1 ha
  obtain ⟨keys, hkeys, ha⟩ := except_bind_eq_ok.1 ha
  obtain rfl := Except.ok.inj ha
  rw [hprogram, hconfig, hseed, hframes, hcycles, hkeys]
  rfl

theorem Request.ofSplit_insert (h : q.Inserts q') (hr : ofSplit fs q = .ok r) :
    ofSplit fs q' = .ok r.traced := by
  unfold ofSplit at hr ⊢
  rw [h.count_eq (by decide)]
  split_ifs at hr ⊢
  · obtain rfl := Except.ok.inj hr
    rfl
  · obtain ⟨a, ha, rfl⟩ := except_map_eq_ok.1 hr
    rw [Arguments.ofSplit_insert h ha]
    rfl

/-- The second list of arguments is the first with the option for a trace put in, behind arguments
that an option can stand behind. -/
def AddsTrace (stands : List String → Prop) (args args' : List String) : Prop :=
  ∃ before after, stands before ∧ args = before ++ after ∧ args' = before ++ "--trace" :: after

/-- The option for a trace asks for one wherever an option can stand, and for nothing else. -/
def ArgumentParser.TakesTrace (parse : ArgumentParser) (stands : List String → Prop) : Prop :=
  ∀ fs args args' r, AddsTrace stands args args' → parse fs args = .ok r →
    parse fs args' = .ok r.traced

/-- An option of the run can stand behind these arguments. -/
def OptionStands (before : List String) : Prop :=
  ∃ lead ∈ [["run"], ["--", "run"]], ∃ l, admits none l = true ∧ before = lead ++ l

theorem Request.parse_takesTrace : ArgumentParser.TakesTrace parse OptionStands := by
  rintro fs _ _ r ⟨_, l₂, ⟨lead, hlead, l₁, hadmits, rfl⟩, rfl, rfl⟩ hr
  have hparse (l : List String) : parse fs (lead ++ l) = (all none l empty >>= ofSplit fs) := by
    simp only [List.mem_cons, List.not_mem_nil, or_false] at hlead
    obtain rfl | rfl := hlead <;> rfl
  rw [List.append_assoc, hparse] at hr ⊢
  obtain ⟨q, hq, hr⟩ := except_bind_eq_ok.1 hr
  obtain ⟨q', hq', hinserts⟩ := all_insert hadmits hq
  rw [hq']
  exact ofSplit_insert hinserts hr

end

end SpriteVM.Command
