import DevicePlugin.Proofs.Request.Exclusive
import DevicePlugin.Proofs.Request.Part

/-!
# Who holds which token

Only cancelling a request changes its tokens: the one in use is tripped, and a new
one takes its place. An inference takes the token in use when it takes its request,
and keeps it. So while it is active its token is either still in use or tripped.
-/

namespace DevicePlugin

theorem Phase.answered_ne_created {hop : Hop} {reply : Reply} {phase : Phase} (h : phase ≠ .created) :
    phase.answered hop reply ≠ .created := by
  unfold answered
  split
  · split <;> simp
  · exact h

namespace Engine

variable {σ : Type} {stages : RequestId → Stages σ} {allowed : Step σ → Prop} {c c' : Engine σ × Option Task}

/-! ## Tokens in a turn -/

def KeepsTokens (rid : RequestId) (e e' : Engine σ) : Prop :=
  (e'.requests rid).token = (e.requests rid).token ∧ (e'.requests rid).tripped = (e.requests rid).tripped

theorem keepsTokens_setRequest (e : Engine σ) (id rid : RequestId) {r : AsyncRequest}
    (htoken : r.token = (e.requests id).token) (htripped : r.tripped = (e.requests id).tripped) :
    KeepsTokens rid e (e.setRequest id r) := by
  by_cases hrid : rid = id
  · subst hrid
    simp [KeepsTokens, setRequest, htoken, htripped]
  · simp [KeepsTokens, setRequest, hrid]

theorem Move.keepsTokens (h : Move stages c c') (rid : RequestId) : KeepsTokens rid c.1 c'.1 := by
  cases h with
  | take htake =>
    obtain ⟨-, executor, rfl⟩ := takeTask_eq htake
    exact ⟨rfl, rfl⟩
  | queue _ => exact ⟨rfl, rfl⟩
  | count => exact ⟨rfl, rfl⟩
  | @lose e t _ =>
    show KeepsTokens rid e (e.answer t .dropped)
    rw [answer_eq]
    exact ⟨rfl, rfl⟩
  | @run e t =>
    obtain ⟨e', reply, halike, -, heq, -⟩ := runTask_answers stages e t
    simp only [heq, answer_eq]
    exact ⟨halike.token rid, halike.tripped rid⟩
  | busy _ _ _ => exact ⟨rfl, rfl⟩
  | @begin e id _ _ _ => exact keepsTokens_setRequest e (e.inferences id).request rid rfl rfl
  | hand _ _ _ => exact ⟨rfl, rfl⟩
  | @settle e id result notice _ _ =>
    have hfinish := keepsTokens_setRequest e (e.inferences id).request rid
      (r := { e.requests (e.inferences id).request with inFlight := false }) rfl rfl
    cases notice <;> exact hfinish
  | @breakOff e id hop _ _ => exact keepsTokens_setRequest e (e.inferences id).request rid rfl rfl

def Trips (rid : RequestId) (e e' : Engine σ) : Prop :=
  (e'.requests rid).token = (e.requests rid).token + 1 ∧
    (e'.requests rid).tripped = (e.requests rid).token :: (e.requests rid).tripped

theorem step_tokens {s : Step σ} (hcall : s.IsCall) (e : Engine σ) (rid : RequestId) :
    KeepsTokens rid e (e.step stages s) ∨ s = .cancel rid ∧ Trips rid e (e.step stages s) := by
  have hdoes := step_does stages e hcall
  generalize e.step stages s = next at hdoes ⊢
  cases hdoes with
  | cancel r =>
    by_cases hrid : r = rid
    · subst hrid
      right
      simp [Trips, cancel, setRequest]
    · left
      simp [KeepsTokens, cancel, setRequest, Ne.symm hrid]
  | setCallback r callback => exact .inl (keepsTokens_setRequest e r rid rfl rfl)
  | lose htake =>
    obtain ⟨-, executor, rfl⟩ := takeTask_eq htake
    rw [answer_eq]
    exact .inl ⟨rfl, rfl⟩
  | @leave id _ _ _ _ => exact .inl (keepsTokens_setRequest e (e.inferences id).request rid rfl rfl)
  | _ => exact .inl ⟨rfl, rfl⟩

/-- Only cancelling a request changes its tokens. -/
theorem Turn.tokens (h : Turn stages allowed c c') (rid : RequestId) :
    KeepsTokens rid c.1 c'.1 ∨ allowed (.cancel rid) ∧ Trips rid c.1 c'.1 := by
  cases h with
  | move hmove => exact .inl (hmove.keepsTokens rid)
  | defer => exact .inl ⟨rfl, rfl⟩
  | @call e s hcall hallowed =>
    rcases step_tokens hcall e rid with hkept | ⟨rfl, htrips⟩
    · exact .inl hkept
    · exact .inr ⟨hallowed, htrips⟩

theorem Turn.mem_tripped (h : Turn stages allowed c c') {rid : RequestId} {token : CancelToken}
    (htoken : token ∈ (c.1.requests rid).tripped) : token ∈ (c'.1.requests rid).tripped := by
  rcases h.tokens rid with hkept | ⟨-, -, htripped⟩
  · rw [hkept.2]
    exact htoken
  · rw [htripped]
    exact List.mem_cons_of_mem _ htoken

theorem isTripped_iff {e : Engine σ} {id : InferenceId} :
    e.isTripped id = true ↔ (e.inferences id).token ∈ (e.requests (e.inferences id).request).tripped := by
  simp [isTripped]

/-! ## The token of an active inference -/

/-- An active inference was so before, with the same token, or has just begun with the token in use. -/
theorem Turn.active (h : Turn stages allowed c c') (hs : Sound c.1 c.2) {rid : RequestId} {j : InferenceId}
    (hactive : c'.1.Active rid j) :
    c.1.Active rid j ∧ (c'.1.inferences j).token = (c.1.inferences j).token ∨
      (c.1.inferences j).phase = .created ∧ (c'.1.inferences j).token = (c.1.requests rid).token := by
  obtain ⟨hj, hrequest, hphase'⟩ := hactive
  obtain ⟨more, -, hpart⟩ := h.part j
  cases hpart with
  | aside hsame hquiet hknown =>
    rw [hsame] at hrequest hphase' ⊢
    exact .inl ⟨⟨hknown hj, hrequest, hphase'⟩, rfl⟩
  | made hnew hstarted hphase =>
    rw [hphase] at hphase'
    cases hphase'
  | busy _ hphase hnext =>
    rw [hnext] at hphase'
    cases hphase'
  | begin _ hphase hnext hhand =>
    rw [hnext] at hrequest ⊢
    exact .inr ⟨hphase, by rw [← hrequest]⟩
  | hand hknown hdue htripped hnext hhand =>
    obtain ⟨hop, reply, -, hphase⟩ := Sound.due_awaiting hdue
    rw [hnext] at hrequest ⊢
    exact .inl ⟨hrequest ▸ active_of_awaiting hknown hphase, rfl⟩
  | ran hhand htask hends hnext =>
    rw [hnext, Phase.isActive_answered] at hphase'
    rw [hnext] at hrequest ⊢
    exact .inl ⟨⟨htask ▸ hs.known _ (.inl hhand), hrequest, hphase'⟩, rfl⟩
  | lost hheld htask hlost hnext =>
    rw [hnext, Phase.isActive_answered] at hphase'
    rw [hnext] at hrequest ⊢
    exact .inl ⟨⟨htask ▸ hs.known _ hheld, hrequest, hphase'⟩, rfl⟩
  | settle _ hsettles hnext =>
    rw [hnext] at hphase'
    cases hphase'
  | breakOff _ hphase hnext =>
    rw [hnext] at hphase'
    cases hphase'
  | abandon _ hopen hnext =>
    rw [hnext] at hphase'
    cases hphase'

def Marked (e : Engine σ) : Prop :=
  ∀ rid j, e.Active rid j →
    (e.inferences j).token = (e.requests rid).token ∨ (e.inferences j).token ∈ (e.requests rid).tripped

theorem IsNew.marked {e : Engine σ} (h : IsNew e) : Marked e := by
  rintro rid j ⟨hj, -⟩
  rw [h.started] at hj
  exact absurd hj (Nat.not_lt_zero j)

theorem Marked.turn (h : Marked c.1) (hs : Sound c.1 c.2) (ht : Turn stages allowed c c') : Marked c'.1 := by
  intro rid j hactive
  have hbefore : (c'.1.inferences j).token = (c.1.requests rid).token ∨
      (c'.1.inferences j).token ∈ (c.1.requests rid).tripped := by
    rcases ht.active hs hactive with ⟨hold, htoken⟩ | ⟨-, htoken⟩
    · rw [htoken]
      exact h rid j hold
    · exact .inl htoken
  rcases hbefore with hinUse | htripped
  · rcases ht.tokens rid with hkept | ⟨-, -, htrips⟩
    · exact .inl (hinUse.trans hkept.1.symm)
    · -- The request was cancelled in this turn.
      refine .inr ?_
      rw [htrips, hinUse]
      exact List.mem_cons_self
  · exact .inr (ht.mem_tripped htripped)

theorem Visited.marked (h : Visited stages c) : Marked c.1 := by
  refine h.invariant (p := fun c => Marked c.1) (fun start hnew => ?_) fun c c' hc hmarked ht => ?_
  · exact hnew.marked
  · exact hmarked.turn hc.sound ht

/-! ## Inferences whose token is tripped -/

/-- Once it has begun, an inference has begun for good, and keeps its token. -/
theorem Part.begun {j : InferenceId} {more : List Happening} (h : Part stages allowed j c c' more)
    (hj : j < c.1.started) (hbegun : (c.1.inferences j).phase ≠ .created) :
    (c'.1.inferences j).phase ≠ .created ∧ (c'.1.inferences j).token = (c.1.inferences j).token := by
  cases h with
  | aside hsame hquiet hknown =>
    rw [hsame]
    exact ⟨hbegun, rfl⟩
  | made hnew hstarted hphase => exact absurd hj (hnew ▸ Nat.lt_irrefl _)
  | ran hhand htask hends hnext =>
    rw [hnext]
    exact ⟨Phase.answered_ne_created hbegun, rfl⟩
  | lost hheld htask hlost hnext =>
    rw [hnext]
    exact ⟨Phase.answered_ne_created hbegun, rfl⟩
  | begin _ hphase hnext hhand => exact absurd hphase hbegun
  | _ => simp [*]

/-- The inference has begun, and its token is tripped unless it has ended. -/
def Stopped (rid : RequestId) (j : InferenceId) (e : Engine σ) : Prop :=
  j < e.started ∧ (e.inferences j).phase ≠ .created ∧ (e.Active rid j → e.isTripped j = true)

/-- It hands over nothing more, and stays so. -/
theorem Stopped.turn {rid : RequestId} {j : InferenceId} (h : Stopped rid j c.1) (hs : Sound c.1 c.2)
    (hrequest : (c.1.inferences j).request = rid) (ht : Turn stages allowed c c') :
    Stopped rid j c'.1 ∧ submissions j c'.1.trace = submissions j c.1.trace := by
  obtain ⟨hj, hbegun, htripped⟩ := h
  have hrequest' : (c'.1.inferences j).request = rid := (ht.request hj).trans hrequest
  obtain ⟨more, htrace, hpart⟩ := ht.part j
  have hnone : submissions j more = [] := by
    refine submissions_eq_nil_iff.mpr fun hop x hmem => ?_
    rcases hpart.handed hmem with ⟨-, hcreated⟩ | ⟨work, -, hdue, huntripped, -⟩
    · exact hbegun hcreated
    · obtain ⟨hop, reply, -, hphase⟩ := Sound.due_awaiting hdue
      rw [htripped (hrequest ▸ active_of_awaiting hj hphase)] at huntripped
      cases huntripped
  refine ⟨⟨Nat.lt_of_lt_of_le hj ht.started_le, ?_, ?_⟩, by rw [htrace, submissions_append, hnone, List.append_nil]⟩
  · exact (hpart.begun hj hbegun).1
  · intro hactive
    rcases ht.active hs hactive with ⟨hold, htoken⟩ | ⟨hcreated, -⟩
    · have hmem := isTripped_iff.mp (htripped hold)
      rw [hrequest] at hmem
      rw [isTripped_iff, hrequest', htoken]
      exact ht.mem_tripped hmem
    · exact absurd hcreated hbegun

theorem stopped_turns {rid : RequestId} {j : InferenceId} (h : Stopped rid j c.1) (hs : Sound c.1 c.2)
    (hrequest : (c.1.inferences j).request = rid) (ht : Turns stages allowed c c') :
    Stopped rid j c'.1 ∧ (c'.1.inferences j).request = rid ∧ submissions j c'.1.trace = submissions j c.1.trace := by
  induction ht with
  | refl => exact ⟨h, hrequest, rfl⟩
  | tail hbefore hturn ih =>
    obtain ⟨hstopped, hrequest', hsubmissions⟩ := ih
    obtain ⟨hnext, hmore⟩ := hstopped.turn (hs.turns hbefore) hrequest' hturn
    exact ⟨hnext, (hturn.request hstopped.1).trans hrequest', hmore.trans hsubmissions⟩

/-! ## Inferences that begin later -/

/-- An inference that had not begun holds none of the tokens up to a bound while it is active. -/
structure Fresh (rid : RequestId) (bound : CancelToken) (j : InferenceId) (e : Engine σ) : Prop where
  token : bound < (e.requests rid).token
  held : e.Active rid j → bound < (e.inferences j).token

theorem Fresh.turn {rid : RequestId} {bound : CancelToken} {j : InferenceId} (h : Fresh rid bound j c.1)
    (hs : Sound c.1 c.2) (ht : Turn stages allowed c c') : Fresh rid bound j c'.1 := by
  constructor
  · rcases ht.tokens rid with hkept | ⟨-, htoken, -⟩
    · rw [hkept.1]
      exact h.token
    · rw [htoken]
      exact Nat.lt_succ_of_lt h.token
  · intro hactive
    rcases ht.active hs hactive with ⟨hold, htoken⟩ | ⟨-, htoken⟩
    · rw [htoken]
      exact h.held hold
    · rw [htoken]
      exact h.token

theorem fresh_turns {rid : RequestId} {bound : CancelToken} {j : InferenceId} (h : Fresh rid bound j c.1)
    (hs : Sound c.1 c.2) (ht : Turns stages allowed c c') : Fresh rid bound j c'.1 := by
  induction ht with
  | refl => exact h
  | tail hbefore hturn ih => exact ih.turn (hs.turns hbefore) hturn

/-! ## Results of being cancelled -/

/-- Who is told that it is cancelled, though its token may be in use, was told so by its own stages. -/
structure Honest (e : Engine σ) (hand : Option Task) : Prop where
  carried : ∀ t, e.Holds hand t → ∀ callback result, t.work = .notify callback result → result ≠ .error .cancelled
  answered : ∀ j, j < e.started → ∀ hop,
    (e.inferences j).phase = .awaiting hop (.delivered (.error .cancelled)) →
    .ran (e.inferences j).request j hop (.error .cancelled) ∈ e.trace

theorem IsNew.honest {e : Engine σ} (h : IsNew e) : Honest e none := by
  constructor
  · intro t ht
    obtain ⟨x, hx⟩ := holds_none.mp ht
    rw [h.queue] at hx
    cases hx
  · intro j hj
    rw [h.started] at hj
    exact absurd hj (Nat.not_lt_zero j)

theorem Ends.cancelled {stages : Stages σ} {e : Engine σ} {t : Task} {more : List Happening} {state : σ}
    (h : Ends stages e t (.delivered (.error .cancelled)) more state)
    (hwork : ∀ callback result, t.work = .notify callback result → result ≠ .error .cancelled) :
    more = [.ran t.request t.inference t.work.hop (.error .cancelled)] := by
  generalize hreply : Reply.delivered (.error .cancelled) = reply at h
  cases h with
  | poisoned _ hpoisoned => cases hreply
  | stages _ hpoisoned hrun =>
    rename_i outcome
    cases outcome with
    | ok value => cases hreply
    | error failure =>
      cases hreply
      rfl
    | panic => cases hreply
  | called hnotify hpanics =>
    cases hreply
    exact absurd rfl (hwork _ _ hnotify)
  | broke hnotify hpanics => cases hreply

theorem Honest.carried_turn (h : Honest c.1 c.2) (ht : Turn stages allowed c c') {t : Task}
    (hheld : c'.1.Holds c'.2 t) {callback : Callback} {result : InferResult}
    (hwork : t.work = .notify callback result) : result ≠ .error .cancelled := by
  rcases ht.holds_due hheld with hold | ⟨hhop, -⟩ | hdue
  · exact h.carried t hold callback result hwork
  · rw [hwork] at hhop
    cases hhop
  · rw [hwork] at hdue
    cases hdue with
    | notify _ _ hc hresult hcallback => exact hresult

theorem Honest.answered_turn (h : Honest c.1 c.2) (hs : Sound c.1 c.2) (ht : Turn stages allowed c c')
    {j : InferenceId} (hj : j < c'.1.started) {hop : Hop}
    (hphase' : (c'.1.inferences j).phase = .awaiting hop (.delivered (.error .cancelled))) :
    .ran (c'.1.inferences j).request j hop (.error .cancelled) ∈ c'.1.trace := by
  obtain ⟨more, htrace, hpart⟩ := ht.part j
  rw [htrace]
  cases hpart with
  | aside hsame hquiet hknown =>
    rw [hsame] at hphase' ⊢
    exact List.mem_append_left more (h.answered j (hknown hj) hop hphase')
  | made hnew hstarted hphase =>
    rw [hphase] at hphase'
    cases hphase'
  | @ran t reply _ hhand htask hends hnext =>
    rw [hnext] at hphase' ⊢
    have howed := hs.owed t (.inl hhand)
    rw [htask] at howed
    rcases howed with hphase | hphase | hphase
    · rw [hphase, Phase.answered_awaiting] at hphase'
      cases hphase'
      have hran := hends.cancelled (h.carried t (.inl hhand))
      have howned : t.request = (c.1.inferences j).request := htask ▸ hs.owned t (.inl hhand)
      rw [hran, ← howned, ← htask]
      exact List.mem_append_right _ (List.mem_singleton_self _)
    · rw [hphase] at hphase'
      cases hphase'
    · rw [hphase] at hphase'
      cases hphase'
  | @lost t hheld htask hlost hnext =>
    rw [hnext] at hphase'
    have howed := hs.owed t hheld
    rw [htask] at howed
    rcases howed with hphase | hphase | hphase
    · rw [hphase, Phase.answered_awaiting] at hphase'
      cases hphase'
    · rw [hphase] at hphase'
      cases hphase'
    · rw [hphase] at hphase'
      cases hphase'
  | _ => simp_all

theorem Honest.turn (h : Honest c.1 c.2) (hs : Sound c.1 c.2) (ht : Turn stages allowed c c') : Honest c'.1 c'.2 where
  carried _ hheld _ _ hwork := h.carried_turn ht hheld hwork
  answered _ hj _ hphase := h.answered_turn hs ht hj hphase

theorem Visited.honest (h : Visited stages c) : Honest c.1 c.2 := by
  refine h.invariant (p := fun c => Honest c.1 c.2) (fun start hnew => ?_) fun c c' hc hhonest ht => ?_
  · exact hnew.honest
  · exact hhonest.turn hc.sound ht

/-- An inference whose token is in use settles as cancelled only if its stages did so. -/
theorem Honest.settles {e : Engine σ} {hand : Option Task} (h : Honest e hand) {j : InferenceId} (hj : j < e.started)
    (huntripped : e.isTripped j = false) {notice : Option Notice} (hs : e.Settles j (.error .cancelled) notice) :
    ∃ hop, .ran (e.inferences j).request j hop (.error .cancelled) ∈ e.trace := by
  have hconcludes (hc : e.Concludes j (.error .cancelled)) :
      ∃ hop, .ran (e.inferences j).request j hop (.error .cancelled) ∈ e.trace := by
    cases hc with
    | start failure hphase => exact ⟨.start, h.answered j hj .start hphase⟩
    | finish result hphase => exact ⟨.finish, h.answered j hj .finish hphase⟩
  cases hs with
  | cancelled hop reply hhop hphase htripped executor =>
    rw [huntripped] at htripped
    cases htripped
  | gaveUp hc executor => exact hconcludes hc
  | unheard _ hc hresult hcallback => exact hconcludes hc
  | uncalled result callback hc hresult hcallback htripped =>
    rw [huntripped] at htripped
    cases htripped
  | told _ hphase => exact ⟨.notify, h.answered j hj .notify hphase⟩
  | unawaited reply hphase htripped =>
    rw [huntripped] at htripped
    cases htripped

end Engine

end DevicePlugin
