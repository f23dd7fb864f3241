import Campaign.Proofs.Progress

/-!
# What a barrier confirms

A submission is `Confirmed` in a history once its extrinsic was taken and a later read of its
account has answered with a nonce past the extrinsic's.  The tracked nonces only move on
(`Advances`), so a barrier on the account, anywhere after the submission, waits for such an answer:
either it has come, or the barrier has warned that time ran out (`confirmed_of_walk`).

So a step that stands behind such a barrier is not attempted before the submission is confirmed
(`confirmed_before`), as long as no barrier has warned.
-/

namespace Campaign

open Act History

variable {ν τ : Type}

/-- A warning that the time of a barrier has run out. -/
def Event.isTimeout : Event τ → Bool
  | .noticed (.timedOut _ _ _) => true
  | _ => false

/-- No barrier has run out of time. -/
def History.InTime (h : History τ) : Prop := ∀ x ∈ h, x.isTimeout = false

instance (h : History τ) : Decidable h.InTime := inferInstanceAs (Decidable (∀ x ∈ h, _))

theorem History.InTime.of_suffix {h g : History τ} (htime : g.InTime) (hhg : h <:+ g) : h.InTime :=
  fun x hx => htime x (hhg.mem hx)

namespace Session

/-- No tracked nonce has gone, and none has moved back. -/
def Advances (s t : Session ν τ) : Prop :=
  ∀ a n, s.nonces.get? (.text a) = some n → ∃ k, n ≤ k ∧ t.nonces.get? (.text a) = some k

instance : IsPreorder (Session ν τ) Advances where
  refl _ _ n hn := ⟨n, Int.le_refl n, hn⟩
  trans s t u h g a n hn := by
    obtain ⟨k, hk, ht⟩ := h a n hn
    obtain ⟨l, hl, hu⟩ := g a k ht
    exact ⟨l, Int.le_trans hk hl, hu⟩

theorem SameBooks.advances {s t : Session ν τ} (h : SameBooks s t) : Advances s t :=
  fun a n hn => ⟨n, Int.le_refl n, h.nonces a n hn⟩

end Session

namespace Script

open Session

variable {script : Script ν τ}

theorem advances_submit (x : Submit) : Keeps Advances (script.submit x) := by
  refine keeps_of fun s t out h => ?_
  rcases out with f | hash
  · exact (sameBooks_of_submit_error h).advances
  · rw [submit_eq] at h
    obtain ⟨e, m, hprep, hsend⟩ := ok_of_bind h
    have hdue := (prepare_ok hprep).2.1
    refine trans_of Advances ((sameBooks_prepare x).of_runOn hprep).advances ?_
    rcases send_cases hdue hsend with ⟨_, _, -, hf, -⟩ | ⟨_, -, ⟨_, _, -, hf, -⟩ |
      ⟨hash', n', -, -, rfl⟩⟩
    · cases hf
    · cases hf
    · intro a n hn
      rw [taking, Tracker.get?_put_text]
      split
      · rename_i ha
        rw [← ha, hdue] at hn
        obtain rfl := Option.some.inj hn
        exact ⟨_, by omega, rfl⟩
      · exact ⟨n, Int.le_refl n, hn⟩

/-- **A submission is confirmed**: its extrinsic was taken, and a later read of its account has
answered with a greater nonce. -/
def Confirmed (script : Script ν τ) (x : Submit) (h : History τ) : Prop :=
  ∃ e answer r later before, script.Takes before x e ∧ answer.bind Client.nonceOf = .ok r ∧
    e.nonce < r ∧ h = later ++ .look e.address answer :: before

theorem Confirmed.mono {x : Submit} {h g : History τ} (hconfirmed : script.Confirmed x h)
    (hhg : h <:+ g) : script.Confirmed x g := by
  obtain ⟨e, answer, r, later, before, htakes, hr, hlt, rfl⟩ := hconfirmed
  obtain ⟨more, rfl⟩ := hhg
  exact ⟨e, answer, r, more ++ later, before, htakes, hr, hlt, (List.append_assoc ..).symm⟩

variable [Seconds τ]

theorem advances_execute (step : Step τ) : Keeps Advances (script.execute step) := by
  by_cases hsubmit : ∃ x, step = .submit x
  · obtain ⟨x, rfl⟩ := hsubmit
    exact keeps_bind (advances_submit x) fun _ => keeps_pure _
  · intro s a n hn
    have hnonces : ((script.execute step).runOn s).2.nonces = s.nonces :=
      (execute_nonces (fun x hx => hsubmit ⟨x, hx⟩) s).1
    exact ⟨n, Int.le_refl n, by rw [hnonces, hn]⟩

theorem Walk.advances {steps : List (Step τ)} {s t : Session ν τ} {out : Except Fault Unit}
    (h : Walk script steps s out t) : Advances s t :=
  h.keeps (fun _ s _ => refl_of Advances s) fun step _ => advances_execute step

/-- **A walk that goes through a submission and a barrier on its account has it confirmed**, unless
a barrier has run out of time. -/
theorem confirmed_of_walk {x : Submit} {b : Barrier τ} {mid rest : List (Step τ)}
    {s t : Session ν τ}
    (h : Walk script (.submit x :: (mid ++ .barrier b :: rest)) s (.ok ()) t)
    (hb : b.account = x.account) (htime : InTime t.world.journal) :
    script.Confirmed x t.world.journal := by
  obtain ⟨m, r, u, -, hexec, hrest⟩ := h.ok_cons rfl rfl
  obtain ⟨k, r', v, hmid, hexec', hafter⟩ := hrest.ok_at
  obtain ⟨hash, hsubmit⟩ := execute_submit_ok hexec
  obtain ⟨reached, hwait⟩ := execute_barrier_ok hexec'
  obtain ⟨new, -, ⟨_, e, -, -, -, htakes, hnext⟩ | ⟨f, hf, -⟩⟩ := submit_offers hsubmit
  · obtain ⟨a, target, ha, htarget, hend⟩ := wait_ok hwait
    obtain rfl : e.address = a := by
      obtain ⟨hash', -, ready, ⟨haddr, -⟩, -⟩ := htakes
      rw [hb, haddr] at ha
      exact Except.ok.inj ha
    obtain ⟨target', hle, htarget'⟩ := hmid.advances _ _ hnext
    obtain rfl : target = target' := Option.some.inj (htarget.symm.trans htarget')
    rcases hend with ⟨answer, r, before, hr, hreached, hbefore, hv⟩ | ⟨-, timeout, hwarned⟩
    · obtain ⟨later, hlater⟩ := hafter.suffix
      obtain ⟨hash', hoffer⟩ := htakes
      refine ⟨e, answer, r, later ++ [.noticed (.reached (.int target) (.text e.address))], before,
        ⟨hash', hoffer.mono (hmid.suffix.trans hbefore)⟩, hr, by omega, ?_⟩
      rw [← hlater, hv, List.append_assoc]
      rfl
    · have := htime _ (hafter.suffix.mem hwarned)
      cases this
  · cases hf

/-- What comes before a step of a list that is not in its first part comes after that part. -/
theorem prefix_of_not_mem {α : Type} {front rest before after : List α} {a : α}
    (h : before ++ a :: after = front ++ rest) (ha : a ∉ front) : front <+: before := by
  have hfront : front <+: before ++ a :: after := ⟨rest, h.symm⟩
  rcases List.prefix_or_prefix_of_prefix hfront (List.prefix_append before (a :: after)) with
    hp | ⟨mid, rfl⟩
  · exact hp
  · cases mid with
    | nil => exact ⟨[], by simp⟩
    | cons c mid =>
      rw [List.append_assoc, List.append_cancel_left_eq] at h
      obtain ⟨rfl, -⟩ := List.cons.inj h
      exact absurd (by simp) ha

/-- **What stands behind a barrier is not attempted before the submissions in front of the barrier
are confirmed** that are of its account. -/
theorem confirmed_before {front rest before after : List (Step τ)} {x y : Submit} {b : Barrier τ}
    {s m : Session ν τ} (hsteps : before ++ .submit y :: after = front ++ .barrier b :: rest)
    (hx : .submit x ∈ front) (hy : .submit y ∉ front) (hb : b.account = x.account)
    (h : Walk script before s (.ok ()) m) (htime : InTime m.world.journal) :
    script.Confirmed x m.world.journal := by
  have hsplit : front ++ .barrier b :: rest = (front ++ [.barrier b]) ++ rest := by simp
  obtain ⟨more, rfl⟩ := prefix_of_not_mem (hsteps.trans hsplit) (by simpa using hy)
  obtain ⟨first, mid, rfl⟩ := List.append_of_mem hx
  have hshape : first ++ .submit x :: mid ++ [.barrier b] ++ more =
      first ++ (.submit x :: (mid ++ .barrier b :: more)) := by simp
  rw [hshape] at h
  rcases h.append_cases with ⟨k, -, hk⟩ | ⟨f, hf, -⟩
  · exact confirmed_of_walk hk hb htime
  · cases hf

end Script

end Campaign
