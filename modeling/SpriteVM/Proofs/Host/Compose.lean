import SpriteVM.Proofs.Host.Run

namespace SpriteVM

namespace Host

variable {h t : Hosted} {last : Option Frame}

theorem runFrames_one (last : Option Frame) (h : Hosted) :
    runFrames 1 last h =
      if h.machine.state.terminal then .ok (last, true) h
      else match runFrame h with
        | .ok frame t => .ok (some frame, ends frame t.machine.state) t
        | .error f t => .error f t := by
  rw [runFrames_succ]
  cases h.machine.state.terminal with
  | true => rfl
  | false =>
    cases runFrame h with
    | error f t => rfl
    | ok frame t =>
      dsimp only
      cases ends frame t.machine.state <;> rfl

/-- Goes on for up to `n` frames from what the frames before came to. -/
def resume (n : Nat) (r : Option Frame × Bool) : EStateM Fault Hosted (Option Frame × Bool) :=
  if r.2 then pure (r.1, true) else runFrames n r.1

/-- The frames of a run are the first and those after it. -/
theorem runFrames_one_add (n : Nat) (last : Option Frame) :
    runFrames (n + 1) last = runFrames 1 last >>= resume n := by
  funext h
  have hone := runFrames_one last h
  rw [runFrames_succ]
  by_cases ht : h.machine.state.terminal = true
  · rw [if_pos ht] at hone ⊢
    rw [bind_of_ok hone]
    rfl
  · rw [if_neg ht] at hone ⊢
    cases hr : runFrame h with
    | error f t =>
      rw [hr] at hone
      rw [bind_of_error hone]
    | ok frame t =>
      rw [hr] at hone
      rw [bind_of_ok hone]
      dsimp only
      cases ends frame t.machine.state <;> rfl

/-- A run in one part goes on from what its first part came to. -/
theorem runFrames_add (n k : Nat) (last : Option Frame) :
    runFrames (n + k) last = runFrames n last >>= resume k := by
  induction n generalizing last with
  | zero =>
    rw [Nat.zero_add]
    rfl
  | succ n ih =>
    have hresume (r : Option Frame × Bool) : resume (n + k) r = resume n r >>= resume k := by
      obtain ⟨last, ended⟩ := r
      cases ended with
      | true => rfl
      | false => exact ih last
    calc runFrames (n + 1 + k) last = runFrames (n + k + 1) last := by rw [Nat.add_right_comm]
      _ = runFrames 1 last >>= resume (n + k) := runFrames_one_add (n + k) last
      _ = runFrames 1 last >>= fun r => resume n r >>= resume k := by rw [funext hresume]
      _ = runFrames 1 last >>= resume n >>= resume k := (bind_assoc _ _ _).symm
      _ = runFrames (n + 1) last >>= resume k := by rw [← runFrames_one_add]

/-- The answer of a run after a frame `last`, from that of the run by itself. -/
def after (last : Option Frame) (r : Option Frame × Bool) : Option Frame × Bool :=
  (r.1.or last, r.2)

theorem runFrames_one_last (last : Option Frame) :
    runFrames 1 last = after last <$> runFrames 1 none := by
  funext h
  have hnone := runFrames_one none h
  rw [runFrames_one]
  by_cases ht : h.machine.state.terminal = true
  · rw [if_pos ht] at hnone ⊢
    rw [map_of_ok _ hnone]
    rfl
  · rw [if_neg ht] at hnone ⊢
    cases hr : runFrame h with
    | error f t =>
      rw [hr] at hnone
      rw [map_of_error _ hnone]
    | ok frame t =>
      rw [hr] at hnone
      rw [map_of_ok _ hnone]
      rfl

/-- A frame from before a run is answered only if the run has none of its own. -/
theorem runFrames_last (n : Nat) (last : Option Frame) :
    runFrames n last = after last <$> runFrames n none := by
  induction n generalizing last with
  | zero => rfl
  | succ n ih =>
    have hresume (r : Option Frame × Bool) :
        resume n (after last r) = after last <$> resume n r := by
      obtain ⟨frame, ended⟩ := r
      cases ended with
      | true => rfl
      | false =>
        have hafter : after (frame.or last) = after last ∘ after frame := by
          funext r
          rw [after, Function.comp, after, after, Option.or_assoc]
        calc runFrames n (frame.or last) = after (frame.or last) <$> runFrames n none := ih _
          _ = after last <$> after frame <$> runFrames n none := by rw [hafter, comp_map]
          _ = after last <$> runFrames n frame := by rw [← ih]
    calc runFrames (n + 1) last = runFrames 1 last >>= resume n := runFrames_one_add n last
      _ = runFrames 1 none >>= fun r => resume n (after last r) := by
        rw [runFrames_one_last, bind_map_left]
      _ = runFrames 1 none >>= fun r => after last <$> resume n r := by rw [funext hresume]
      _ = after last <$> (runFrames 1 none >>= resume n) := (map_bind _ _ _).symm
      _ = after last <$> runFrames (n + 1) none := by rw [← runFrames_one_add]

/-- A run that finds the machine stopped has no frame. -/
theorem runFrames_terminal (ht : t.machine.state.terminal = true) (k : Nat) (last : Option Frame) :
    ∃ ended, runFrames k last t = .ok (last, ended) t := by
  cases k with
  | zero => exact ⟨false, rfl⟩
  | succ k =>
    refine ⟨true, ?_⟩
    rw [runFrames_succ, ht, if_pos rfl]

/-- Runs of `n` and then of `k` frames come to what one of `n + k` frames does, unless the first
leaves the machine waiting with no key held. -/
theorem run_add {n patience : Nat} (hr : run (some n) patience h = .ok (some last) t)
    (hwait : ¬ (t.machine.state.blocking = true ∧ ¬ t.machine.state.KeyHeld)) (k : Nat) :
    run (some (n + k : Nat)) patience h =
      (Option.map (·.or last) <$> run (some k) patience) t := by
  obtain ⟨ended, hfirst, -⟩ := run_eq_ok hr
  have hfirst : runFrames n none h = .ok (last, ended) t := hfirst
  have hrun (n : Nat) : run (some n) patience = (some ·.1) <$> runFrames n none := run_eq _ _
  have hadd : runFrames (n + k) none h = resume k (last, ended) t := by
    rw [runFrames_add, bind_of_ok hfirst]
  rw [hrun, hrun]
  cases ended with
  | true =>
    -- the first run came to its end, so that the machine has stopped, and the second has no frame
    have hterm : t.machine.state.terminal = true := by
      obtain hrest | ⟨hopen, -⟩ := (runFrames_outcome n none h).rest_or_bound hfirst
      · exact hrest.resolve_right hwait
      · contradiction
    obtain ⟨_, hsecond⟩ := runFrames_terminal hterm k none
    rw [map_of_ok _ hadd, map_of_ok _ (map_of_ok _ hsecond)]
    rfl
  | false =>
    have hlast : runFrames (n + k) none h = (after last <$> runFrames k none) t := by
      rw [← runFrames_last]
      exact hadd
    cases hsecond : runFrames k none t with
    | ok r u =>
      rw [map_of_ok _ hsecond] at hlast
      rw [map_of_ok _ hlast, map_of_ok _ (map_of_ok _ hsecond)]
      rfl
    | error f u =>
      rw [map_of_error _ hsecond] at hlast
      rw [map_of_error _ hlast, map_of_error _ (map_of_error _ hsecond)]

theorem run_add_waitingHost : ∃ m₀, Machine.create Bus.blank 7 = .ok m₀ ∧
    ∃ frame t, run (some 1) 0 (waitingHost m₀) = .ok (some (some frame)) t ∧
      t.machine.state.blocking = true ∧ t.machine.state.KeyHeld ∧
      run (some 5) 0 (waitingHost m₀) = (Option.map (·.or (some frame)) <$> run (some 4) 0) t := by
  obtain ⟨m₀, h₀, hrun⟩ := Machine.exists_created Bus.blank 7 (fun m₀ =>
    match run (some 1) 0 (waitingHost m₀) with
    | .ok a t => a.any (·.isSome) && t.machine.state.blocking && t.machine.state.keys.get 3
    | .error _ _ => false) (by decide +kernel)
  cases hr : run (some 1) 0 (waitingHost m₀) with
  | error f t => simp [hr] at hrun
  | ok a t =>
    simp only [hr, Bool.and_eq_true, Option.any_eq_true, Option.isSome_iff_exists] at hrun
    obtain ⟨⟨⟨_, rfl, frame, rfl⟩, hblocking⟩, hdown⟩ := hrun
    have hheld : t.machine.state.KeyHeld := ⟨3, hdown⟩
    exact ⟨m₀, h₀, frame, t, hr, hblocking, hheld, run_add (n := 1) hr (fun h => h.2 hheld) 4⟩

end Host

end SpriteVM
