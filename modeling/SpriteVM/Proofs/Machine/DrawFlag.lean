import SpriteVM.Proofs.Machine.Between
import SpriteVM.Proofs.Machine.Outcome
import SpriteVM.Proofs.Machine.Parts

namespace SpriteVM

namespace Core

/-- A sprite that is drawn raises the flag, and one that fails halfway leaves it. -/
theorem drawSprite_flag (x y : Fin 16) (n : Nat) (c : Core) :
    Ends (drawSprite x y n) (fun _ t => t.state.draw = true)
      (fun _ t => t.state.draw = c.state.draw) c := by
  rw [drawSprite, ends_bind, ends_read, ends_bind]
  exact (drawRows_writes _ _ _ _ c).imp (fun _ _ _ => rfl) fun _ t ht => ht .draw (by simp)

/-- From `c` to `t` the picture and a raised flag stay, or the flag is raised. -/
def Flagged (c t : Core) : Prop :=
  (t.state.screen = c.state.screen ∧ (c.state.draw = true → t.state.draw = true)) ∨
    t.state.draw = true

theorem execute_flagged (d : Instruction) (c : Core) :
    Ends (execute d) (fun _ t => Flagged c t)
      (fun _ t => if d.kind = .draw then t.state.draw = c.state.draw else Flagged c t) c := by
  by_cases hdraw : d.kind = .draw
  · have hexec : execute d = (do drawSprite d.x d.y d.nibble.val; advance false) := by
      simp [execute, hdraw]
    rw [hexec, ends_bind]
    refine (drawSprite_flag d.x d.y d.nibble.val c).imp (fun _ t ht => .inr ht) fun _ t ht => ?_
    rwa [if_pos hdraw]
  · by_cases hclear : d.kind = .clear
    · have hexec : execute d = change fun s => { s with screen := s.screen.clear, draw := true } := by
        simp [execute, hclear]
      rw [hexec]
      exact .inr rfl
    · have hfree : .screen ∉ d.kind.writes ∧ .draw ∉ d.kind.writes := by
        cases hk : d.kind <;> simp_all [Kind.writes]
      have hsame {t : Core} (h : ChangesOnly d.kind.writes c t) : Flagged c t :=
        .inl ⟨h .screen hfree.1, fun hc => Eq.trans (h .draw hfree.2) hc⟩
      refine (execute_writes d c).imp (fun _ t ht => hsame ht) fun _ t ht => ?_
      rw [if_neg hdraw]
      exact hsame ht

end Core

namespace Machine

/-- The next cycle fails in the middle of a drawing, or before it began. -/
def DrawFails (m : Machine) : Prop :=
  m.Active ∧ m.state.Fetchable ∧ ∃ d b f c, readInstruction m.state.pc m.cleared.bus = .ok d b ∧
    d.kind = .draw ∧ Core.execute d ⟨m.state, b⟩ = .error f c

theorem step_flagged {m : Machine} (h : m.state.draw = false → ¬ m.DrawFails) :
    Core.Flagged m.core (left m.step).core := by
  have hsame : Core.Flagged m.core m.core := .inl ⟨rfl, id⟩
  have ho := step_outcome m
  generalize m.step = r at ho
  cases ho with
  | stopped | waiting | counter | unreadable => exact hsame
  | @failed ha hp d b f c hr he =>
    have hexec := (Core.execute_flagged d ⟨m.state, b⟩).error he
    by_cases hdraw : d.kind = .draw
    · rw [if_pos hdraw] at hexec
      cases hflag : m.state.draw with
      | true => exact .inr (hexec.trans hflag)
      | false => exact absurd ⟨ha, hp, d, b, f, c, hr, hdraw, he⟩ (h hflag)
    · rw [if_neg hdraw] at hexec
      exact hexec
  | @hookFailed ha hp d b c f trace hr he hn | @done ha hp d b c trace hr he hn =>
    have hexec := (Core.execute_flagged d ⟨m.state, b⟩).ok he
    exact hexec

end Machine

/-- A machine as a session leaves it, and the picture that the host shows: the one at the start, and
again that of the machine after each action that refreshes it. -/
inductive Watched (refreshes : HostAction → Machine → Prop) (m₀ : Machine) : Machine → Screen → Prop
  | start : Watched refreshes m₀ m₀ m₀.state.screen
  | refresh {m : Machine} {shown : Screen} {a : HostAction} (h : Watched refreshes m₀ m shown)
    (ha : refreshes a m) : Watched refreshes m₀ (left (a.act m)) (left (a.act m)).state.screen
  | act {m : Machine} {shown : Screen} {a : HostAction} (h : Watched refreshes m₀ m shown)
    (ha : ¬ refreshes a m) : Watched refreshes m₀ (left (a.act m)) shown

/-- The picture may be another one without the flag: after a reset, and after a drawing that fails
while the flag is clear. -/
def HostAction.Silent (a : HostAction) (m : Machine) : Prop :=
  a = .reset ∨ (a = .step ∧ m.state.draw = false ∧ m.DrawFails)

/-- A host shows the picture each time it takes the flag, and where it may change without the flag. -/
def OnTakeOrSilent (a : HostAction) (m : Machine) : Prop := a = .takeDraw ∨ a.Silent m

/-- The same host, but it shows nothing where it finds the flag clear. -/
def OnSetOrSilent (a : HostAction) (m : Machine) : Prop :=
  (a = .takeDraw ∧ m.state.draw = true) ∨ a.Silent m

theorem HostAction.act_flagged {a : HostAction} {m : Machine} (ha : ¬ OnSetOrSilent a m) :
    Core.Flagged m.core (left (a.act m)).core := by
  simp only [OnSetOrSilent, Silent, not_or, not_and] at ha
  obtain ⟨htake, hreset, hfails⟩ := ha
  by_cases hs : a = .step
  · have hleft : left (a.act m) = left m.step := by
      rw [hs, act, left_map]
    rw [hleft]
    exact Machine.step_flagged (hfails hs)
  · have hchange := act_changes hs hreset m
    obtain hscreen | ⟨-, hdraw⟩ := hchange.picture
    · -- a flag that is taken was clear, or the host would have shown the picture
      exact .inl ⟨hscreen, fun hset => hchange.announced (fun he => htake he hset) hset⟩
    · exact .inr hdraw

/-- The host shows the picture of the machine, or the flag is set. -/
theorem Watched.current {refreshes : HostAction → Machine → Prop} {m₀ m : Machine} {shown : Screen}
    (hr : ∀ a m, OnSetOrSilent a m → refreshes a m) (h : Watched refreshes m₀ m shown) :
    m.state.screen = shown ∨ m.state.draw = true := by
  induction h with
  | start | refresh => exact .inl rfl
  | @act m shown a h ha ih =>
    obtain ⟨hscreen, hkept⟩ | hdraw := HostAction.act_flagged fun hset => ha (hr a m hset)
    · exact ih.imp (fun hshown => Eq.trans hscreen hshown) hkept
    · exact .inr hdraw

/-- Where the picture is not the one the host shows, the flag is set, be it that the host shows the
picture each time it takes the flag or only if it finds it set. -/
theorem watched_draw {m₀ m : Machine} {shown : Screen}
    (h : Watched OnTakeOrSilent m₀ m shown ∨ Watched OnSetOrSilent m₀ m shown)
    (hdiffers : m.state.screen ≠ shown) : m.state.draw = true := by
  have hcurrent : m.state.screen = shown ∨ m.state.draw = true := by
    obtain htake | hset := h
    · exact htake.current fun a m h => h.imp And.left id
    · exact hset.current fun _ _ h => h
  exact hcurrent.resolve_left hdiffers

/-- Actions that do not refresh leave the host with the picture it shows. -/
theorem Watched.session {refreshes : HostAction → Machine → Prop} {m₀ m : Machine} {shown : Screen}
    (h : Watched refreshes m₀ m shown) {actions : List HostAction}
    (ha : ∀ a ∈ actions, ∀ m, ¬ refreshes a m) :
    Watched refreshes m₀ (session actions m) shown := by
  induction actions generalizing m with
  | nil => exact h
  | cons a actions ih =>
    have hnext := h.act (ha a List.mem_cons_self m)
    exact ih hnext fun b hb => ha b (List.mem_cons_of_mem a hb)

/-- A host that shows the picture when it takes the flag, and then only. -/
abbrev OnTake (a : HostAction) (_ : Machine) : Prop := a = .takeDraw

theorem watched_since_take (m₀ : Machine) (before after : List HostAction)
    (hbefore : .takeDraw ∉ before) (hafter : .takeDraw ∉ after) :
    Watched OnTake m₀ (session (before ++ .takeDraw :: after) m₀)
      (session before m₀).state.screen := by
  have hnone {actions : List HostAction} (h : .takeDraw ∉ actions) :
      ∀ a ∈ actions, ∀ m, ¬ OnTake a m := fun a ha _ he => h (he ▸ ha)
  have htaken := (Watched.start.session (hnone hbefore) : Watched OnTake m₀ _ _).refresh
    (a := .takeDraw) rfl
  have hend := htaken.session (hnone hafter)
  rwa [session, List.foldl_append]

/-- A reset while the picture is not of the standard size. -/
def smallReset : List HostAction := [.resize 8 8, .takeDraw, .reset]

/-- A sprite whose second row lies outside of memory. -/
def halfSprite : List HostAction :=
  [.load [0xAF, 0xFF, 0xD0, 0x02], .resize 8 8, .takeDraw, .busWrite 0xFFF 0x80, .step, .step]

/-- For a host that shows the picture only when it takes the flag, the flag can be clear while the
picture is another one. -/
theorem watched_draw_onTake : ∃ m₀, Machine.create Bus.blank 7 = .ok m₀ ∧
    ∀ run ∈ [smallReset, halfSprite], ∃ shown, Watched OnTake m₀ (session run m₀) shown ∧
      (session run m₀).state.screen ≠ shown ∧ (session run m₀).state.draw = false := by
  obtain ⟨m₀, h₀, hrun⟩ := Machine.exists_created Bus.blank 7 (fun m₀ =>
    ((session smallReset m₀).state.screen.width != (session [.resize 8 8] m₀).state.screen.width &&
      !(session smallReset m₀).state.draw) &&
    ((session halfSprite m₀).state.screen.cell 0 !=
        (session (halfSprite.take 2) m₀).state.screen.cell 0 &&
      !(session halfSprite m₀).state.draw)) (by decide +kernel)
  simp only [Bool.and_eq_true, bne_iff_ne, Bool.not_eq_true'] at hrun
  obtain ⟨⟨hwidth, hreset⟩, hcell, hsprite⟩ := hrun
  refine ⟨m₀, h₀, List.forall_mem_cons.2 ⟨?_, List.forall_mem_singleton.2 ?_⟩⟩
  · have hwatched := watched_since_take m₀ [.resize 8 8] [.reset] (by decide) (by decide)
    exact ⟨_, hwatched, fun h => hwidth (congrArg Screen.width h), hreset⟩
  · have hwatched := watched_since_take m₀ (halfSprite.take 2) (halfSprite.drop 3) (by decide)
      (by decide)
    exact ⟨_, hwatched, fun h => hcell (congrArg (Screen.cell · 0) h), hsprite⟩

/-- A new picture after a reset, which itself leaves the flag clear. -/
theorem watched_draw_resized : ∃ m₀ m shown, Machine.create Bus.blank 7 = .ok m₀ ∧
    Watched OnSetOrSilent m₀ m shown ∧ m.state.screen ≠ shown ∧ m.state.draw = true := by
  obtain ⟨m₀, h₀, hrun⟩ := Machine.exists_created Bus.blank 7 (fun m₀ =>
    (session [.reset] m₀).state.screen.width != (session [.reset, .resize 8 8] m₀).state.screen.width)
    (by decide +kernel)
  have hreset : OnSetOrSilent .reset m₀ := .inr (.inl rfl)
  have hresize (m : Machine) : ¬ OnSetOrSilent (.resize 8 8) m := by
    simp [OnSetOrSilent, HostAction.Silent]
  have hwatched := (Watched.refresh .start hreset).act (hresize _)
  have hdiffers : (session [.reset, .resize 8 8] m₀).state.screen ≠
      (session [.reset] m₀).state.screen :=
    fun h => (bne_iff_ne.1 hrun) (congrArg Screen.width h.symm)
  exact ⟨m₀, _, _, h₀, hwatched, hdiffers, watched_draw (.inr hwatched) hdiffers⟩

end SpriteVM
