/-
Reports of the progress of a session, by workers at once. Each call loads the
last progress and the time of the last report, decides, claims the time slot by
an exchange, stores its percentage and sends it; a poll is served what is stored.

A call that is due as a heartbeat goes ahead whatever its percentage is. And
what a call has compared may be old when it claims its slot, as may be what it
stores and sends thereafter.
-/
import Netvisor.Lib.Transition
import Netvisor.Lib.Underway

namespace Netvisor.Progress

/-- Between reports, in seconds. -/
def heartbeatIntervalSecs : Nat := 30

def throttleSecs : Nat := 10

structure Session where
  lastProgress : Nat := 0
  lastProgressReportTime : Nat := 0
deriving DecidableEq, Repr

/-- A call of `report_scanning_progress`, by its next access. -/
inductive Call
  | loadProgress (percent : Nat)
  | readTime (percent prevPercent : Nat)
  | loadTime (percent prevPercent now : Nat)
  | exchange (percent now lastTime : Nat)
  | store (percent : Nat)
  | send (percent : Nat)
deriving DecidableEq, Repr

/-- Whether the call goes on to claim the slot. -/
def reports (percent prevPercent now lastTime : Nat) : Bool :=
  let progressChanged := prevPercent < percent || percent == 100
  let heartbeatDue := lastTime + heartbeatIntervalSecs ≤ now
  !(!progressChanged && !heartbeatDue && percent < 100) &&
    !(percent < 100 && !heartbeatDue && now < lastTime + throttleSecs)

/-- The next access, and what is left of the call; `clock` is the system time,
should it be read. -/
def Session.access (s : Session) (clock : Nat) : Call → Session × Option Call
  | .loadProgress percent => (s, some (.readTime percent s.lastProgress))
  | .readTime percent prevPercent => (s, some (.loadTime percent prevPercent clock))
  | .loadTime percent prevPercent now =>
    (s, if reports percent prevPercent now s.lastProgressReportTime then
      some (.exchange percent now s.lastProgressReportTime) else none)
  | .exchange percent now lastTime =>
    if s.lastProgressReportTime = lastTime then ({ s with lastProgressReportTime := now }, some (.store percent))
    else (s, none)
  | .store percent => ({ s with lastProgress := percent }, some (.send percent))
  | .send _ => (s, none)

/-- What an access sends. -/
def Call.sends : Call → List Nat
  | send percent => [percent]
  | _ => []

/-- A session with the calls under way and what was sent and served, in order;
`computed` is what the workers' counters last came to. -/
structure Reports where
  session : Session := {}
  calls : List Call := []
  computed : Nat := 0
  sent : List Nat := []
  served : List Nat := []
deriving DecidableEq, Repr

inductive Action
  /-- A worker computes its percentage, and reports it. -/
  | report (percent : Nat)
  | access (i clock : Nat)
  /-- `get_progress`. -/
  | poll
deriving DecidableEq, Repr

def step (s : Reports) : Action → Option Reports
  | .report percent =>
    if s.computed ≤ percent ∧ percent ≤ 100 then
      some { s with computed := percent, calls := s.calls ++ [.loadProgress percent] }
    else none
  | .access i clock => s.calls[i]?.map fun call =>
    { s with
      session := (s.session.access clock call).1
      calls := Underway.settle s.calls i (s.session.access clock call).2
      sent := s.sent ++ call.sends }
  | .poll => some { s with served := s.served ++ [s.session.lastProgress] }

/-- Neither what was sent nor what was served ever went backwards. -/
def NeverBackwards (s : Reports) : Prop := s.sent.Pairwise (· ≤ ·) ∧ s.served.Pairwise (· ≤ ·)

instance (s : Reports) : Decidable (NeverBackwards s) := by unfold NeverBackwards; infer_instance

/-- A call that has claimed its slot. -/
def Call.claimed : Call → Bool
  | store _ | send _ => true
  | _ => false

/-- A call that claims its slot does so with no less than is stored, and while
no other one has claimed. -/
def Meets (s : Reports) : Action → Prop
  | .access i _ => ∀ call ∈ s.calls[i]?, match call with
    | .exchange percent _ lastTime =>
      s.session.lastProgressReportTime = lastTime →
        s.session.lastProgress ≤ percent ∧ ∀ other ∈ s.calls, other.claimed = false
    | _ => True
  | _ => True

instance (s : Reports) (a : Action) : Decidable (Meets s a) := by
  cases a with
  | access i clock =>
    refine @Option.decidableForallMem _ _ (fun call => ?_) _
    cases call <;> infer_instance
  | report | poll => exact .isTrue trivial

/-! ## The invariant -/

structure Inv (s : Reports) : Prop where
  backwards : NeverBackwards s
  sent : ∀ p ∈ s.sent, p ≤ s.session.lastProgress
  served : ∀ p ∈ s.served, p ≤ s.session.lastProgress
  -- at most one call is between its claim and its end
  single : s.calls.countP Call.claimed ≤ 1
  store : ∀ p, Call.store p ∈ s.calls → s.session.lastProgress ≤ p
  send : ∀ p, Call.send p ∈ s.calls → p = s.session.lastProgress

variable {s t : Reports} {i : Nat} {call : Call}

theorem countP_settle (hcall : s.calls[i]? = some call) (next : Option Call) :
    (Underway.settle s.calls i next).countP Call.claimed + [call].countP Call.claimed =
      s.calls.countP Call.claimed + next.toList.countP Call.claimed := by
  rw [(Underway.perm_settle hcall).countP_eq, (Underway.perm_cons_eraseIdx hcall).countP_eq, List.countP_append,
    List.countP_cons, List.countP_cons, List.countP_nil]
  omega

/-- While a call has claimed, the others have not. -/
theorem Inv.others_unclaimed (h : Inv s) (hcall : s.calls[i]? = some call) (hclaimed : call.claimed) :
    ∀ other ∈ s.calls.eraseIdx i, other.claimed = false := by
  have hsingle := h.single
  rw [(Underway.perm_cons_eraseIdx hcall).countP_eq, List.countP_cons, if_pos hclaimed] at hsingle
  have hnone : (s.calls.eraseIdx i).countP Call.claimed = 0 := by omega
  intro other hother
  simpa using List.countP_eq_zero.mp hnone other hother

theorem pairwise_concat {l : List Nat} {p : Nat} (hl : l.Pairwise (· ≤ ·)) (h : ∀ q ∈ l, q ≤ p) :
    (l ++ [p]).Pairwise (· ≤ ·) :=
  List.pairwise_append.mpr ⟨hl, List.pairwise_singleton _ _, fun q hq r hr => by
    rw [List.mem_singleton.mp hr]
    exact h q hq⟩

/-- An access that leaves the last progress, and sends nothing. -/
theorem Inv.leaves (h : Inv s) (hcall : s.calls[i]? = some call) {session : Session} (next : Option Call)
    (hsession : session.lastProgress = s.session.lastProgress) (hnext : next.toList.countP Call.claimed = 0) :
    Inv { s with session, calls := Underway.settle s.calls i next } := by
  have hcount := countP_settle hcall next
  have hsingle := h.single
  have hold : ∀ other ∈ Underway.settle s.calls i next, other.claimed → other ∈ s.calls := by
    intro other hother hclaimed
    rcases Underway.mem_settle hother with ho | ho
    · exact ho
    · rw [ho] at hnext
      simp [hclaimed] at hnext
  exact {
    backwards := h.backwards
    sent := by rw [hsession]; exact h.sent
    served := by rw [hsession]; exact h.served
    single := by simp only; omega
    store := fun p hp => by rw [hsession]; exact h.store p (hold _ hp rfl)
    send := fun p hp => by rw [hsession]; exact h.send p (hold _ hp rfl) }

theorem Inv.claims (h : Inv s) {percent now lastTime : Nat}
    (hcall : s.calls[i]? = some (.exchange percent now lastTime))
    (hle : s.session.lastProgress ≤ percent) (hothers : ∀ other ∈ s.calls, other.claimed = false) :
    Inv { s with session := { s.session with lastProgressReportTime := now },
                 calls := Underway.settle s.calls i (some (.store percent)) } := by
  have hcount := countP_settle hcall (some (.store percent))
  have hnone : s.calls.countP Call.claimed = 0 := List.countP_eq_zero.mpr fun other ho => by simp [hothers other ho]
  have hnew : ∀ other ∈ Underway.settle s.calls i (some (.store percent)), other.claimed →
      other = .store percent := by
    intro other hother hclaimed
    rcases Underway.mem_settle hother with ho | ho
    · rw [hothers other ho] at hclaimed
      cases hclaimed
    · exact (Option.some.inj ho).symm
  exact {
    backwards := h.backwards
    sent := h.sent
    served := h.served
    single := by
      have hone : [Call.store percent].countP Call.claimed = 1 := rfl
      simp only [Option.toList_some] at hcount ⊢
      omega
    store := fun p hp => by
      cases hnew _ hp rfl
      exact hle
    send := fun p hp => by cases hnew _ hp rfl }

theorem Inv.stores (h : Inv s) {percent : Nat} (hcall : s.calls[i]? = some (.store percent)) :
    Inv { s with session := { s.session with lastProgress := percent },
                 calls := Underway.settle s.calls i (some (.send percent)) } := by
  have hcount := countP_settle hcall (some (.send percent))
  have hsingle := h.single
  have hle := h.store percent (List.mem_of_getElem? hcall)
  have hothers := h.others_unclaimed hcall rfl
  have hnew : ∀ other ∈ Underway.settle s.calls i (some (.send percent)), other.claimed → other = .send percent := by
    intro other hother hclaimed
    rcases List.mem_cons.mp ((Underway.perm_settle hcall).mem_iff.mp hother) with ho | ho
    · exact ho
    · rw [hothers other ho] at hclaimed
      cases hclaimed
  exact {
    backwards := h.backwards
    sent := fun p hp => Nat.le_trans (h.sent p hp) hle
    served := fun p hp => Nat.le_trans (h.served p hp) hle
    single := by
      have hone : [Call.store percent].countP Call.claimed = 1 := rfl
      have hone' : [Call.send percent].countP Call.claimed = 1 := rfl
      simp only [Option.toList_some] at hcount ⊢
      omega
    store := fun p hp => by cases hnew _ hp rfl
    send := fun p hp => by
      cases hnew _ hp rfl
      rfl }

theorem Inv.sends (h : Inv s) {percent : Nat} (hcall : s.calls[i]? = some (.send percent)) :
    Inv { s with calls := Underway.settle s.calls i none, sent := s.sent ++ [percent] } := by
  have hleaves := h.leaves hcall none rfl rfl
  have hlast := h.send percent (List.mem_of_getElem? hcall)
  exact { hleaves with
    backwards := ⟨pairwise_concat h.backwards.1 fun q hq => by rw [hlast]; exact h.sent q hq, h.backwards.2⟩
    sent := fun p hp => by
      rcases List.mem_append.mp hp with hp | hp
      · exact h.sent p hp
      · exact Nat.le_of_eq ((List.mem_singleton.mp hp).trans hlast) }

theorem Inv.step {a : Action} (h : Inv s) (hok : Meets s a) (hstep : Progress.step s a = some t) : Inv t := by
  cases a with
  | report percent =>
    simp only [Progress.step] at hstep
    split at hstep
    · cases hstep
      have hold : ∀ other ∈ s.calls ++ [Call.loadProgress percent], other.claimed → other ∈ s.calls := by
        intro other hother hclaimed
        rcases List.mem_append.mp hother with ho | ho
        · exact ho
        · rw [List.mem_singleton.mp ho] at hclaimed
          cases hclaimed
      exact { h with
        single := by
          have hsingle := h.single
          simpa [List.countP_append, Call.claimed] using hsingle
        store := fun p hp => h.store p (hold _ hp rfl)
        send := fun p hp => h.send p (hold _ hp rfl) }
    · cases hstep
  | access i clock =>
    simp only [Progress.step, Option.map_eq_some_iff] at hstep
    obtain ⟨call, hcall, rfl⟩ := hstep
    have hmeets := hok call hcall
    cases call with
    | loadProgress percent => simpa [Session.access, Call.sends] using h.leaves hcall _ rfl rfl
    | readTime percent prevPercent => simpa [Session.access, Call.sends] using h.leaves hcall _ rfl rfl
    | loadTime percent prevPercent now =>
      simp only [Session.access, Call.sends, List.append_nil]
      split
      · exact h.leaves hcall _ rfl rfl
      · exact h.leaves hcall _ rfl rfl
    | exchange percent now lastTime =>
      simp only [Session.access, Call.sends, List.append_nil]
      split
      · next hsame =>
        obtain ⟨hle, hothers⟩ := hmeets hsame
        exact h.claims hcall hle hothers
      · exact h.leaves hcall _ rfl rfl
    | store percent => simpa [Session.access, Call.sends] using h.stores hcall
    | send percent => exact h.sends hcall
  | poll =>
    cases hstep
    exact { h with
      backwards := ⟨h.backwards.1, pairwise_concat h.backwards.2 h.served⟩
      served := fun p hp => by
        rcases List.mem_append.mp hp with hp | hp
        · exact h.served p hp
        · exact Nat.le_of_eq (List.mem_singleton.mp hp) }

theorem inv_start : Inv {} where
  backwards := ⟨.nil, .nil⟩
  sent := nofun
  served := nofun
  single := Nat.zero_le _
  store := nofun
  send := nofun

/-- **In a run where a slot is claimed only with no less than is stored and while
nobody else has claimed, neither what is sent nor what is served goes backwards.** -/
theorem neverBackwards_of_meets {as : List Action} (hmeets : Transition.Along step Meets {} as) :
    Transition.Visits step NeverBackwards {} as :=
  hmeets.visits (fun _ _ _ h hok hstep => h.step hok hstep) (fun _ h => h.backwards) inv_start

/-- Two workers report one after the other. -/
def orderedRun : List Action :=
  .report 25 :: (List.replicate 6 (.access 0 100)) ++
    .poll :: .report 50 :: (List.replicate 6 (.access 0 130)) ++ [.poll]

theorem neverBackwards_orderedRun : Transition.Visits step NeverBackwards {} orderedRun :=
  neverBackwards_of_meets (by decide +kernel)

/-- The first of two workers is late, and due as a heartbeat. -/
def lateRun : List Action :=
  .report 25 :: .report 50 :: (List.replicate 6 (.access 1 100)) ++
    .poll :: (List.replicate 6 (.access 0 130)) ++ [.poll]

theorem lateRun_backwards : ¬Transition.Visits step NeverBackwards {} lateRun := by decide +kernel

/-! ## Containers -/

/-- The percentage of a container scan: `as u8` of the share that is done. -/
def containerPercent (done totalContainers : Nat) : Nat := done * 100 / max totalContainers 1 % 256

theorem containerPercent_le {done totalContainers : Nat} (h : done ≤ totalContainers) :
    done * 100 / max totalContainers 1 ≤ 100 := by
  refine Nat.div_le_of_le_mul ?_
  have hmax := Nat.le_max_left totalContainers 1
  calc done * 100 ≤ max totalContainers 1 * 100 := Nat.mul_le_mul_right 100 (Nat.le_trans h hmax)
    _ = max totalContainers 1 * 100 := rfl

/-- The percentages of the containers are what a worker may report, in the order they are computed. -/
theorem containerPercent_mono {done done' totalContainers : Nat} (h : done ≤ done')
    (hdone : done' ≤ totalContainers) :
    containerPercent done totalContainers ≤ containerPercent done' totalContainers ∧
      containerPercent done' totalContainers ≤ 100 := by
  have hle := containerPercent_le (Nat.le_trans h hdone)
  have hle' := containerPercent_le hdone
  have hmono : done * 100 / max totalContainers 1 ≤ done' * 100 / max totalContainers 1 :=
    Nat.div_le_div_right (Nat.mul_le_mul_right 100 h)
  unfold containerPercent
  rw [Nat.mod_eq_of_lt (by omega), Nat.mod_eq_of_lt (by omega)]
  exact ⟨hmono, hle'⟩

end Netvisor.Progress
