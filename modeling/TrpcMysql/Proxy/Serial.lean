import TrpcMysql.Conc.Lanes
import TrpcMysql.Proxy.Isolation

/-!
# The statements of a transaction

A call gives the server its own statement and no other (`text_own`), as it is or as `FormatQuery` makes it, once at
most (`acks_bound`), and the calls on one handle follow each other. So `transaction_serial`: as long as a handle keeps
its executor, what the server acknowledges on this connection are statements of the calls on the handle, in the order
of the calls, each of them once at most; whatever other calls do in between.
-/

namespace TrpcMysql

open Function Conc

/-- The statement that an entry of the history acknowledges. -/
def Note.text? : Note → Option Sql
  | sql _ ev => ev.text?
  | _ => none

/-! ## A call sends its own statement -/

variable {cf cf' : ProxyConfig} {w w' : World} {vs : ℕ → Option (Call × Doing)} {i : ℕ} {c : Call} {d : Doing}
  {o : WorldOp} {a : Answer} {r : o.Reply}

/-- What was acknowledged is the statement of its call; the objects that a call has opened have its statement for their
text, or none, and no other call has opened them. -/
structure OwnTexts (w : World) (vs : ℕ → Option (Call × Doing)) : Prop where
  texts : ∀ i n q, (i, n) ∈ w.log → n.text? = some q → ∃ c d, vs i = some (c, d) ∧ c.sends q
  opened : ∀ i c d, vs i = some (c, d) → ∀ e, ∀ q ∈ d.opened e, e < w.nextExec ∧ OwnText c.sends (w.execs e) q
  apart : ∀ i j x y, vs i = some x → vs j = some y → i ≠ j → ∀ e, ∀ q ∈ x.2.opened e, q ∉ y.2.opened e

theorem rule_opened (ho : ∀ e o', o ≠ .client e o') : (c.rule.after d o r).opened = d.opened := by
  cases o with
  | client e o => exact absurd rfl (ho e o)
  | _ => rfl

theorem OwnTexts.texts_update {d' : Doing} (hI : OwnTexts w vs) (hv : vs i = some (c, d)) (j : ℕ) (n : Note) (q : Sql)
    (hm : (j, n) ∈ w.log) (ht : n.text? = some q) :
    ∃ c₁ d₁, update vs i (some (c, d')) j = some (c₁, d₁) ∧ c₁.sends q := by
  obtain ⟨c₁, d₁, hv₁, hq⟩ := hI.texts j n q hm ht
  by_cases hj : j = i
  · subst hj
    cases hv.symm.trans hv₁
    exact ⟨c, d', update_self .., hq⟩
  · exact ⟨c₁, d₁, by rw [update_of_ne hj]; exact hv₁, hq⟩

/-- **An operation of an executor**: the call adds its own statement to the history, or none, and leaves the objects of
the others. -/
theorem ownTexts_client {e : ExecId} {o : ClientOp} {r : o.Reply} (hI : OwnTexts w vs) (hv : vs i = some (c, d))
    (hallows : c.rule.allows d (.client e o)) (hmade : e < w.nextExec)
    (he : worldStep i (.client e o) a w = some (r, w')) :
    OwnTexts w' (update vs i (some (c, c.rule.after d (.client e o) r))) := by
  have hlogs := logs_step he
  simp only [worldStep, Option.map_eq_some_iff] at he
  obtain ⟨⟨r, s'⟩, hx, heq⟩ := he
  cases heq
  obtain ⟨-, new, hlog, evs, rfl, hevs, -, hothers⟩ := hlogs
  have hs : ((w.setExec e s').record i ((s'.events.drop (w.execs e).events.length).map (.sql e))).execs e = s' := by
    simp [World.record, World.setExec]
  rw [hs] at hevs
  obtain ⟨hown, new, hnew, htexts⟩ := sendsOnce_exec (fun q hq => (hI.opened i c d hv e q hq).2) hallows hx
  obtain rfl : evs = new := List.append_cancel_left (hevs.symm.trans hnew)
  have hafter : (c.rule.after d (.client e o) r).opened = update d.opened e
      ((sendsOnce c.sends).after (d.sending e) o r).opened := rfl
  -- an object was opened before, or it is a new one of this call
  have hbefore : ∀ k x e' q, update vs i (some (c, c.rule.after d (.client e o) r)) k = some x → q ∈ x.2.opened e' →
      (∃ y, vs k = some y ∧ q ∈ y.2.opened e') ∨ (k = i ∧ e' = e ∧ (w.execs e).nextStmt ≤ q) := by
    intro k x e' q hvx hq
    rcases of_update hvx with ⟨rfl, rfl⟩ | ⟨-, hvx⟩
    · rw [hafter] at hq
      by_cases hee : e' = e
      · subst hee
        rw [update_self] at hq
        rcases opened_exec hx hq with hq | hq
        · exact .inl ⟨_, hv, hq⟩
        · exact .inr ⟨rfl, rfl, hq⟩
      · rw [update_of_ne hee] at hq
        exact .inl ⟨_, hv, hq⟩
    · exact .inl ⟨x, hvx, hq⟩
  refine ⟨fun j n q hm ht => ?_, fun j c' d' hv' e' q hq => ?_, fun j k x y hvx hvy hjk e' q hq hq' => ?_⟩
  · rw [hlog] at hm
    rcases List.mem_append.1 hm with hm | hm
    · exact hI.texts_update hv j n q hm ht
    · simp only [List.map_map, List.mem_map, Function.comp_apply, Prod.mk.injEq] at hm
      obtain ⟨ev, hev, rfl, rfl⟩ := hm
      exact ⟨c, _, update_self .., htexts q (List.mem_filterMap.2 ⟨ev, hev, ht⟩)⟩
  · by_cases hee : e' = e
    · subst hee
      rw [hs]
      rcases of_update hv' with ⟨-, heq⟩ | ⟨hj, hvj⟩
      · cases heq
        rw [hafter, update_self] at hq
        exact ⟨hmade, hown q hq⟩
      · obtain ⟨hlt, htext⟩ := hI.opened j c' d' hvj e' q hq
        refine ⟨hlt, htext.same (text_exec htext.1 (fun sql heq => ?_) hx)⟩
        -- the call prepares its own objects only
        subst heq
        exact hI.apart j i _ _ hvj hv hj e' q hq (hallows.2 q rfl)
    · rw [hothers e' hee]
      rcases of_update hv' with ⟨-, heq⟩ | ⟨-, hv'⟩
      · cases heq
        rw [hafter, update_of_ne hee] at hq
        exact hI.opened i c d hv e' q hq
      · exact hI.opened j c' d' hv' e' q hq
  · rcases hbefore j x e' q hvx hq with ⟨x', hvx', hq⟩ | ⟨rfl, rfl, hge⟩ <;>
      rcases hbefore k y e' q hvy hq' with ⟨y', hvy', hq'⟩ | ⟨rfl, hee, hge'⟩
    · exact hI.apart j k x' y' hvx' hvy' hjk e' q hq hq'
    · subst hee
      exact absurd (hI.opened j _ _ hvx' e' q hq).2.1 (Nat.not_lt.2 hge')
    · exact absurd (hI.opened k _ _ hvy' e' q hq').2.1 (Nat.not_lt.2 hge)
    · exact hjk rfl

/-- **One step**: the call adds its own statement to the history, or none, and leaves the objects of the others. -/
theorem ownTexts_step (hI : OwnTexts w vs) (hv : vs i = some (c, d)) (hallows : c.rule.allows d o)
    (hmade : ∀ e o', o = .client e o' → e < w.nextExec) (he : worldStep i o a w = some (r, w')) :
    OwnTexts w' (update vs i (some (c, c.rule.after d o r))) := by
  by_cases hclient : ∃ e o', o = .client e o'
  · obtain ⟨e, o, rfl⟩ := hclient
    exact ownTexts_client hI hv hallows (hmade e o rfl) he
  have hclient : ∀ e o', o ≠ .client e o' := fun e o' heq => hclient ⟨e, o', heq⟩
  have hlogs := logs_step he
  have hnew : w.nextExec ≤ w'.nextExec ∧ ∃ new : List Note, w'.log = w.log ++ new.map (i, ·) ∧
      (∀ e ev, .sql e ev ∉ new) ∧ ∀ e, e < w.nextExec → ∃ this, w'.execs e = { w.execs e with this := this } := by
    cases o with
    | client e o => exact absurd rfl (hclient e o)
    | _ => exact hlogs
  obtain ⟨hnext, new, hlog, hnone, hexecs⟩ := hnew
  -- what was opened stays so, and the objects are as they were
  have hbefore : ∀ k x, update vs i (some (c, c.rule.after d o r)) k = some x →
      ∃ y, vs k = some y ∧ y.1 = x.1 ∧ y.2.opened = x.2.opened := by
    intro k x hvx
    rcases of_update hvx with ⟨rfl, rfl⟩ | ⟨-, hvx⟩
    · exact ⟨_, hv, rfl, (rule_opened hclient).symm⟩
    · exact ⟨x, hvx, rfl, rfl⟩
  refine ⟨fun j n q hm ht => ?_, fun j c' d' hv' e q hq => ?_, fun j k x y hvx hvy hjk e q hq => ?_⟩
  · rw [hlog] at hm
    rcases List.mem_append.1 hm with hm | hm
    · exact hI.texts_update hv j n q hm ht
    · obtain ⟨n', hn', heq⟩ := List.mem_map.1 hm
      cases heq
      cases n with
      | sql e ev => exact absurd hn' (hnone e ev)
      | _ => cases ht
  · obtain ⟨⟨c₁, d₁⟩, hv₁, rfl, hop⟩ := hbefore j _ hv'
    obtain ⟨hlt, htext⟩ := hI.opened j _ _ hv₁ e q (by rw [hop]; exact hq)
    obtain ⟨this, hthis⟩ := hexecs e hlt
    refine ⟨Nat.lt_of_lt_of_le hlt hnext, ?_⟩
    rw [hthis]
    exact htext
  · obtain ⟨x', hvx', -, hopx⟩ := hbefore j x hvx
    obtain ⟨y', hvy', -, hopy⟩ := hbefore k y hvy
    rw [← hopy]
    exact hI.apart j k x' y' hvx' hvy' hjk e q (by rw [hopx]; exact hq)

theorem ownTexts_start {n : ℕ} (hI : OwnTexts w vs) (hn : vs n = none) : OwnTexts w (update vs n (some (c, {}))) := by
  refine ⟨fun j m q hm ht => ?_, fun j c' d' hv e q hq => ?_, fun j k x y hvx hvy hjk e q hq hq' => ?_⟩
  · obtain ⟨c', d', hv, hq⟩ := hI.texts j m q hm ht
    have hj : j ≠ n := by
      rintro rfl
      rw [hn] at hv
      cases hv
    exact ⟨c', d', by rw [update_of_ne hj]; exact hv, hq⟩
  · rcases of_update hv with ⟨-, heq⟩ | ⟨-, hv⟩
    · cases heq
      cases hq
    · exact hI.opened j c' d' hv e q hq
  · rcases of_update hvx with ⟨-, rfl⟩ | ⟨-, hvx⟩
    · cases hq
    rcases of_update hvy with ⟨-, rfl⟩ | ⟨-, hvy⟩
    · cases hq'
    · exact hI.apart j k x y hvx hvy hjk e q hq hq'

variable {serviceName : String} {option : MysqlExecutorPoolOption} {ctxs : CtxId → ClientContext}

/-- **What the server acknowledges to a call is its own statement**, where the calls on a handle follow each other. -/
theorem text_own (hr : proxySystem.Reach Sequenced (World.fresh serviceName option ctxs) cf) {n : Note} {q : Sql}
    (hm : (i, n) ∈ cf.world.log) (ht : n.text? = some q) :
    ∃ c p, cf.frames[i]? = some ⟨c, p⟩ ∧ c.sends q := by
  have hinit : OwnTexts (World.fresh serviceName option ctxs) fun _ => none :=
    ⟨fun j n q hm => (by cases hm), fun j c d hv => (by cases hv), fun j k x y hv => (by cases hv)⟩
  obtain ⟨vs, hI, hout, hin⟩ := hr.obeys Call.obeys hinit (fun _ _ hI hn => ownTexts_start hI hn)
    fun hr hf hI hv hallows he => by
      have he : worldExec _ _ _ _ = some (_, _) := he
      unfold worldExec at he
      split at he
      · cases he
      · refine ownTexts_step hI hv hallows (fun e o' heq => ?_) he
        subst heq
        exact (sequenced_owns hr).call _ _ e ⟨_, hf, .here rfl⟩
  obtain ⟨c, d, hv, hq⟩ := hI.texts i n q hm ht
  have hlt : i < cf.frames.length := by
    by_contra hle
    rw [hout i (Nat.le_of_not_lt hle)] at hv
    cases hv
  obtain ⟨d', hv', -⟩ := hin i _ _ (List.getElem?_eq_getElem hlt)
  cases hv.symm.trans hv'
  exact ⟨_, _, List.getElem?_eq_getElem hlt, hq⟩

/-! ## The statements on a handle -/

/-- The calls on handle `h`, in their order. -/
def callsOn (cf : ProxyConfig) (h : HandleId) : List Call :=
  cf.frames.filterMap fun f => if f.call.handle = some h then some f.call else none

/-- The call whose statement the entry acknowledges. -/
def Note.ackOf : ℕ × Note → Option ℕ
  | (i, n) => if n.isAck then some i else none

theorem ackOf_count {w : World} (i : ℕ) : (w.log.filterMap Note.ackOf).count i = w.acks i := by
  unfold World.acks World.ownLog
  rw [List.count, List.countP_filterMap, List.countP_filterMap]
  refine List.countP_congr fun x _ => ?_
  obtain ⟨j, n⟩ := x
  by_cases hj : j = i <;> cases hn : n.isAck <;> simp [Note.ackOf, hj, hn]

/-- No two entries acknowledge a statement of one call. -/
theorem acks_nodup {g : Guard World WorldOp Answer Call Result WorldOp.Reply} {w₀ : World} (hw : w₀.log = [])
    (hr : proxySystem.Reach g w₀ cf) (hlt : ∀ x ∈ cf.world.log, x.1 < cf.frames.length) :
    (cf.world.log.filterMap Note.ackOf).Nodup := by
  rw [List.nodup_iff_count_le_one]
  intro i
  rcases Nat.lt_or_ge i cf.frames.length with hi | hi
  · rw [ackOf_count]
    refine Nat.le_trans (acks_bound hw hr (List.getElem?_eq_getElem hi)) ?_
    cases (cf.frames[i]).call <;> simp [Call.toSend]
  · rw [List.count_eq_zero.2 fun hm => ?_]
    · exact Nat.zero_le _
    obtain ⟨⟨j, n⟩, hx, hj⟩ := List.mem_filterMap.1 hm
    have := hlt _ hx
    cases hn : n.isAck <;> simp [Note.ackOf, hn] at hj
    omega

/-- The history of the calls on one handle is in the order of the calls. -/
theorem log_inOrder {w₀ : World} (hw : w₀.log = []) (hr : proxySystem.Reach Sequenced w₀ cf) :
    (∀ x ∈ cf.world.log, x.1 < cf.frames.length) ∧ cf.world.log.Pairwise (InOrder cf Call.handle) := by
  have hstart : ∀ (cf : ProxyConfig) (c : Call), Sequenced.start cf c → ∀ h, c.handle = some h →
      ∀ i c', cf.Running i c' → c'.handle ≠ some h := fun _ _ hf h hh => (hf.2 h hh).2
  have hlog : ∀ i o a w r w', proxySystem.exec i o a w = some (r, w') →
      ∃ new : List Note, w'.log = w.log ++ new.map (i, ·) := by
    intro i o a w r w' he
    have he : worldExec i o a w = some (r, w') := he
    unfold worldExec at he
    split at he
    · cases he
    · obtain ⟨-, new, hnew, -⟩ := logs_step he
      exact ⟨new, hnew⟩
  exact hr.inOrder hstart hlog hw

/-- A statement that executor `e` had acknowledged, with its call. -/
def Note.ackOn (e : ExecId) (x : ℕ × Note) : Option (ℕ × Sql) :=
  ((Note.event? e x).bind SqlEvent.text?).map (x.1, ·)

theorem ackOn_eq {e : ExecId} {x : ℕ × Note} {y : ℕ × Sql} (h : Note.ackOn e x = some y) :
    ∃ ev, x = (y.1, .sql e ev) ∧ ev.text? = some y.2 ∧ Note.ackOf x = some y.1 := by
  obtain ⟨i, n⟩ := x
  obtain ⟨q, hq, rfl⟩ := Option.map_eq_some_iff.1 h
  obtain ⟨ev, hev, ht⟩ := Option.bind_eq_some_iff.1 hq
  cases n with
  | sql e' ev' =>
    simp only [Note.event?, Option.ite_none_right_eq_some, Option.some.injEq] at hev
    obtain ⟨rfl, rfl⟩ := hev
    refine ⟨ev', rfl, ht, ?_⟩
    cases ev' with
    | acked id sql => rfl
    | failed => cases ht
  | _ => cases hev

/-- **Transactions are serial.** As long as a handle keeps its executor, what the server acknowledges on it are
statements of the calls on the handle, as they are sent: each once at most, and in the order of the calls. -/
theorem transaction_serial (ls : List (Label Answer Call))
    (hr : proxySystem.Reach Sequenced (World.fresh serviceName option ctxs) cf)
    (hg : proxySystem.Legal Sequenced cf ls) (hs : proxySystem.steps cf ls = some cf') {h : HandleId} {e : ExecId}
    (hlt : h < cf.world.nextHandle) (hex : (cf'.world.handles h).executor = some e) :
    ∃ new, (cf'.world.execs e).events = (cf.world.execs e).events ++ new ∧
      List.SublistForall₂ (fun sent c => c.sends sent) (new.filterMap SqlEvent.text?) (callsOn cf' h) := by
  obtain ⟨-, new, hlog, hevents, hcalls⟩ := isolated_steps ls hr hg hs hlt hex
  have hr' := hr.of_steps ls hs hg
  obtain ⟨hbound, hord⟩ := log_inOrder rfl hr'
  have hnodup := acks_nodup rfl hr' hbound
  rw [List.Nodup, List.pairwise_filterMap] at hnodup
  have hboth := hord.and hnodup
  rw [hlog, List.pairwise_append] at hboth
  -- of two statements on the executor the first is of an earlier call
  have hstrict : new.Pairwise fun x y => ∀ u v, Note.ackOn e x = some u → Note.ackOn e y = some v → u.1 < v.1 := by
    refine hboth.2.1.imp_of_mem fun {x y} hx hy hxy u v hu hv => ?_
    obtain ⟨ev, rfl, -, hack⟩ := ackOn_eq hu
    obtain ⟨ev', rfl, -, hack'⟩ := ackOn_eq hv
    obtain ⟨c, p, hf, hh⟩ := hcalls _ ev hx
    obtain ⟨c', p', hf', hh'⟩ := hcalls _ ev' hy
    have hle := hxy.1 h ((Config.laneOf_eq hf).trans hh) ((Config.laneOf_eq hf').trans hh')
    exact Nat.lt_of_le_of_ne hle (hxy.2 _ hack _ hack')
  have hacks : (new.filterMap (Note.event? e)).filterMap SqlEvent.text? =
      (new.filterMap (Note.ackOn e)).map Prod.snd := by
    rw [List.filterMap_filterMap, List.map_filterMap]
    exact List.filterMap_congr fun x _ => by simp [Note.ackOn, Function.comp_def]
  refine ⟨_, hevents, ?_⟩
  rw [hacks]
  -- each acknowledgement has a call on the handle that sends it
  have hown : ∀ u ∈ new.filterMap (Note.ackOn e), ∃ c p, cf'.frames[u.1]? = some ⟨c, p⟩ ∧ c.handle = some h ∧
      c.sends u.2 := by
    intro u hu
    obtain ⟨x, hx, hu⟩ := List.mem_filterMap.1 hu
    obtain ⟨ev, rfl, ht, -⟩ := ackOn_eq hu
    obtain ⟨c, p, hf, hh⟩ := hcalls _ ev hx
    have ht : Note.text? (.sql e ev) = some u.2 := ht
    obtain ⟨c', p', hf', hq⟩ := text_own hr' (by rw [hlog]; exact List.mem_append_right _ hx) ht
    cases hf.symm.trans hf'
    exact ⟨c, p, hf, hh, hq⟩
  refine sublistForall₂_of_indices (hstrict.filterMap _ fun x y hxy u hu v hv => hxy u v hu hv) fun u hu => ?_
  obtain ⟨c, p, hf, hh, hq⟩ := hown u hu
  exact ⟨c, by simp [hf, hh], hq⟩

/-- Two statements on one handle. -/
theorem transaction_serial_two : ∃ cf cf', proxySystem.Reach Sequenced newProxy cf ∧
    proxySystem.steps cf
      (.start (.queryTx 1 0 { mode := .onlyExec } (ascii "delete from t") []) :: List.replicate 19 (.act 1 {}) ++
        .start (.queryTx 1 0 { mode := .onlyExec } (ascii "delete from s") []) ::
          List.replicate 19 (.act 2 {})) = some cf' ∧
    (cf'.world.execs 0).events.filterMap SqlEvent.text? = [.begin, .user (ascii "delete from t"),
      .user (ascii "delete from s")] ∧
    ∃ new, (cf'.world.execs 0).events = (cf.world.execs 0).events ++ new ∧
      List.SublistForall₂ (fun sent c => c.sends sent) (new.filterMap SqlEvent.text?) (callsOn cf' 0) := by
  have h₁ : proxySystem.Reach Sequenced newProxy _ := System.Reach.init.call_get (c := .begin 0) (List.replicate 60 {})
    (Follows.of_done rfl (by decide) (by decide)) Prog.along_true (by decide +kernel)
  refine ⟨_, (proxySystem.steps _ _).get (by decide +kernel), h₁, (Option.some_get _).symm, by decide +kernel,
    transaction_serial _ h₁ ?_ (Option.some_get _).symm (by decide +kernel) (by decide +kernel)⟩
  refine System.legal_append (sequenced_alone (Follows.of_done rfl (by decide +kernel) (by decide +kernel))
    (by decide +kernel)) fun cf₁ h₂ => ?_
  obtain rfl := Option.get_of_eq_some (by decide +kernel) h₂
  exact sequenced_alone (Follows.of_done rfl (by decide +kernel) (by decide +kernel)) (by decide +kernel)

end TrpcMysql
