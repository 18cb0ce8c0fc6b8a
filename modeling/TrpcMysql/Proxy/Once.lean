import TrpcMysql.Conc.Counts
import TrpcMysql.Proxy.Allowed
import TrpcMysql.Proxy.Exclusive

/-!
# No statement runs twice

A call sends a statement once at most, and not at all if it has none (`Call.sends_atMost`), as its rule says. Every
step of a call leaves in the history what it made happen on an executor (`logs_step`), and an acknowledgement only
where it sent a statement. So `sends_le`: in every interleaving of any calls, whatever is lost and refused, no call
sends more than one statement, also where the first one fails, and the server acknowledges no more than were sent.
-/

namespace TrpcMysql

open Function Conc

/-- The step sends a statement. -/
def WorldOp.sends : WorldOp → Bool
  | client _ o => o.sends
  | _ => false

/-- The number of statements that a call has to send. -/
def Call.toSend : Call → ℕ
  | moveHandle _ | dropHandle _ | stop _ | destroy _ => 0
  | _ => 1

/-- A step that sends a statement is the first of its call, and the call has a statement. -/
theorem rule_sends {c : Call} {d : Doing} {o : WorldOp} (h : c.rule.allows d o) (ho : o.sends = true) :
    d.sent = false ∧ c.toSend = 1 := by
  have hone : ∀ sent, c.sends sent → c.toSend = 1 := by
    intro sent hs
    cases c <;> first | rfl | exact hs.elim
  cases o with
  | client e o =>
    cases o with
    | mysqlRealQuery m sql => exact ⟨h.1, hone sql h.2⟩
    | mysqlStmtExecute st =>
      obtain ⟨sql, hsql⟩ := h.2.1
      exact ⟨h.1, hone sql hsql⟩
    | _ => cases ho
  | _ => cases ho

theorem rule_sent {c : Call} {d : Doing} {o : WorldOp} {r : o.Reply} :
    (c.rule.after d o r).sent = (d.sent || o.sends) := by
  cases o with
  | client e o =>
    cases o with
    | mysqlRealQuery m sql => exact (Bool.or_true _).symm
    | mysqlStmtExecute st => exact (Bool.or_true _).symm
    | mysqlStmtInit m => cases r <;> exact (Bool.or_false _).symm
    | _ => exact (Bool.or_false _).symm
  | _ => exact (Bool.or_false _).symm

/-- **A call sends no more than it has to send**, on every path: a first sending that fails is not made up for. -/
theorem Call.sends_atMost (c : Call) : c.prog.AtMost WorldOp.sends c.toSend := by
  refine Prog.Obeys.atMost (fun d : Doing => if d.sent then 0 else c.toSend) (fun d o ho => ?_) c.obeys
  cases hs : o.sends with
  | false => exact ⟨Nat.zero_le _, fun r => by rw [rule_sent, hs, Bool.or_false]; exact Nat.le_refl _⟩
  | true =>
    obtain ⟨hsent, hone⟩ := rule_sends ho hs
    refine ⟨by simp [hsent, hone], fun r => ?_⟩
    rw [rule_sent, hs, Bool.or_true, if_pos rfl]
    exact Nat.zero_le _

def Note.isAck : Note → Bool
  | sql _ ev => ev.isAck
  | _ => false

/-- What a step of call `i` leaves in the history and of the executors. -/
def WorldOp.Logs (i : ℕ) (o : WorldOp) (w w' : World) : Prop :=
  w.nextExec ≤ w'.nextExec ∧ ∃ new : List Note, w'.log = w.log ++ new.map (i, ·) ∧
    match o with
    | .client e o => ∃ evs : List SqlEvent, new = evs.map (.sql e) ∧
        (w'.execs e).events = (w.execs e).events ++ evs ∧ evs.countP SqlEvent.isAck ≤ o.sends.toNat ∧
        ∀ e', e' ≠ e → w'.execs e' = w.execs e'
    | _ => (∀ e ev, .sql e ev ∉ new) ∧ ∀ e, e < w.nextExec → ∃ this, w'.execs e = { w.execs e with this := this }

/-- **Only an operation of an executor adds to the executor's history**, and the call that makes it notes the same. -/
theorem logs_step {i : ℕ} {o : WorldOp} {a : Answer} {w w' : World} {r : o.Reply}
    (h : worldStep i o a w = some (r, w')) : o.Logs i w w' := by
  have hsame : ∀ {w' : World}, w'.log = w.log → w'.execs = w.execs → w'.nextExec = w.nextExec →
      w.nextExec ≤ w'.nextExec ∧ ∃ new : List Note, w'.log = w.log ++ new.map (i, ·) ∧ (∀ e ev, .sql e ev ∉ new) ∧
        ∀ e, e < w.nextExec → ∃ this, w'.execs e = { w.execs e with this := this } := by
    intro w' hl he hn
    exact ⟨by omega, [], by rw [hl]; simp, by simp, fun e _ => ⟨_, by rw [he]⟩⟩
  cases o
  case client e o =>
    simp only [worldStep, Option.map_eq_some_iff] at h
    obtain ⟨⟨r', s'⟩, hx, heq⟩ := h
    cases heq
    obtain ⟨evs, hevs, hle⟩ := acks_exec hx
    refine ⟨Nat.le_refl _, _, rfl, evs, ?_, ?_, hle, fun e' he => ?_⟩
    · rw [hevs, List.drop_left]
    · simpa [World.record, World.setExec] using hevs
    · simp [World.record, World.setExec, update_of_ne he]
  case runFilters pt x =>
    cases h
    refine ⟨Nat.le_refl _, _, rfl, fun e ev hm => ?_, fun e _ => ⟨_, rfl⟩⟩
    cases a.pass <;> simp at hm
  case checkTimeout x =>
    simp only [worldStep] at h
    split at h
    · cases h
      exact ⟨Nat.le_refl _, _, rfl, by simp, fun e _ => ⟨_, rfl⟩⟩
    · cases h
      exact hsame rfl rfl rfl
  case addTask =>
    simp only [worldStep] at h
    split at h
    · cases h
      exact hsame rfl rfl rfl
    · cases h
  case poolsGetOrInsert key pool =>
    simp only [worldStep] at h
    split at h <;> cases h <;> exact hsame rfl rfl rfl
  case popBack p k =>
    simp only [worldStep] at h
    split at h <;> cases h <;> exact hsame rfl rfl rfl
  case pushBack p k e from? =>
    -- the time of the push is a field of the executor
    have hexecs : ∀ e' : ExecId, ∃ this, update w.execs e { w.execs e with
        this := { (w.execs e).this with aliveTime := a.now } } e' = { w.execs e' with this := this } := by
      intro e'
      by_cases he : e' = e
      · subst he
        exact ⟨_, update_self ..⟩
      · exact ⟨_, update_of_ne he ..⟩
    simp only [worldStep] at h
    split at h
    swap
    · cases h
    split at h
    · cases from? <;> cases h <;> exact ⟨Nat.le_refl _, [], by simp [World.setShard, World.setPool, World.setExec,
        World.setHandle], by simp, fun e' _ => hexecs e'⟩
    · cases h
      exact hsame rfl rfl rfl
  case newExecutor option =>
    cases h
    refine ⟨Nat.le_succ _, [], by simp [World.setExec], by simp, fun e he => ⟨(w.execs e).this, ?_⟩⟩
    simp [World.setExec, update_of_ne (Nat.ne_of_lt he)]
  case endHandle hd =>
    cases h
    cases hex : (w.handles hd).executor with
    | none => exact hsame rfl rfl rfl
    | some e => exact hsame rfl rfl rfl
  case crash => cases h
  all_goals
    cases h
    exact hsame rfl rfl rfl

theorem WorldOp.Logs.acks {i : ℕ} {o : WorldOp} {w w' : World} (h : o.Logs i w w') :
    ∃ new, w'.ownLog i = w.ownLog i ++ new ∧ new.countP Note.isAck ≤ o.sends.toNat := by
  obtain ⟨-, new, hl, hnew⟩ := h
  refine ⟨new, ?_, ?_⟩
  · have hr : w'.ownLog i = (w.record i new).ownLog i := by
      unfold World.ownLog
      rw [hl]
      rfl
    rw [hr, World.ownLog_record]
  · have hnone : (∀ e ev, Note.sql e ev ∉ new) → new.countP Note.isAck ≤ o.sends.toNat := by
      intro hn
      rw [List.countP_eq_zero.2 fun n hm => ?_]
      · exact Nat.zero_le _
      · cases n with
        | sql e ev => exact absurd hm (hn e ev)
        | _ => exact Bool.false_ne_true
    cases o with
    | client e o =>
      obtain ⟨evs, rfl, -, hle, -⟩ := hnew
      rw [List.countP_map]
      exact hle
    | _ => exact hnone hnew.1

/-- The number of statements of call `i` that the server acknowledged. -/
def World.acks (w : World) (i : ℕ) : ℕ := (w.ownLog i).countP Note.isAck

/-- A step adds an acknowledgement of its own call only, and only if it sends a statement. -/
theorem acks_step {i j : ℕ} {o : WorldOp} {a : Answer} {w w' : World} {r : o.Reply}
    (h : worldExec j o a w = some (r, w')) : w'.acks i ≤ w.acks i + if j = i then o.sends.toNat else 0 := by
  unfold worldExec at h
  split at h
  · cases h
  · by_cases hj : j = i
    · subst hj
      obtain ⟨new, hnew, hle⟩ := (logs_step h).acks
      unfold World.acks
      rw [hnew, List.countP_append, if_pos rfl]
      exact Nat.add_le_add_left hle _
    · unfold World.acks
      rw [(beside_step h).log i (Ne.symm hj)]
      exact Nat.le_add_right _ _

section Runs

variable {w₀ : World} {cf : ProxyConfig} {ls : List (Label Answer Call)} {i : ℕ} {c : Call} {p : WProg Result}

/-- What the server acknowledges was sent. -/
theorem acks_performed (hw : w₀.log = []) (hs : proxySystem.steps ⟨w₀, []⟩ ls = some cf) :
    cf.world.acks i ≤ proxySystem.performed WorldOp.sends i ⟨w₀, []⟩ ls := by
  have hnone : w₀.acks i = 0 := by simp [World.acks, World.ownLog, hw]
  have hacks := System.measure_le (S := proxySystem) (T := WorldOp.sends) (m := fun w => w.acks i)
    (fun j o a w r w' he => acks_step he) ls hs
  dsimp only at hacks
  rwa [hnone, Nat.zero_add] at hacks

/-- The server acknowledges no more statements of a call than it has to send. -/
theorem acks_bound {g : Guard World WorldOp Answer Call Result WorldOp.Reply} (hw : w₀.log = [])
    (h : proxySystem.Reach g w₀ cf) (hf : cf.frames[i]? = some ⟨c, p⟩) : cf.world.acks i ≤ c.toSend := by
  obtain ⟨ls, hs⟩ := h.steps
  exact Nat.le_trans (acks_performed hw hs) (System.performed_le Call.sends_atMost ls hs (Nat.zero_le _) hf)

/-- **At most once**: in every run of any calls, from any state of the proxy and its executors, a call sends no more
statements than it has to send, which is one or none, and the server acknowledges no more than the call sends. -/
theorem sends_le (hw : w₀.log = []) (hs : proxySystem.steps ⟨w₀, []⟩ ls = some cf) :
    ∀ i c p, cf.frames[i]? = some ⟨c, p⟩ →
      cf.world.acks i ≤ proxySystem.performed WorldOp.sends i ⟨w₀, []⟩ ls ∧
        proxySystem.performed WorldOp.sends i ⟨w₀, []⟩ ls ≤ c.toSend :=
  fun _ _ _ hf => ⟨acks_performed hw hs, System.performed_le Call.sends_atMost ls hs (Nat.zero_le _) hf⟩

end Runs

/-- A statement that is prepared, on a new connection. -/
theorem sends_le_prepared : ∃ ls cf, proxySystem.steps ⟨newProxy, []⟩ ls = some cf ∧ cf.world.acks 0 = 1 ∧
    ∀ i c p, cf.frames[i]? = some ⟨c, p⟩ → cf.world.acks i ≤ proxySystem.performed WorldOp.sends i ⟨newProxy, []⟩ ls ∧
      proxySystem.performed WorldOp.sends i ⟨newProxy, []⟩ ls ≤ c.toSend := by
  have hs : proxySystem.steps ⟨newProxy, []⟩ (.start (.query 0 { mode := .onlyExec }
      (ascii "delete from t where id = ?") [.string []]) :: List.replicate 40 (.act 0 {})) = some _ :=
    (Option.some_get (by decide +kernel)).symm
  exact ⟨_, _, hs, by decide +kernel, sends_le rfl hs⟩

end TrpcMysql
