import TrpcMysql.Manager.Manager
import TrpcMysql.Pool.Shards

/-!
# The number of shards

The number of shards comes from a YAML file and goes through three structs into one division, two remainders
and two loops, and nothing checks it on its way: `decode` (`mysql_client_conf_parser.h`), `InitManager`
(`mysql_service_proxy.cc`), the pool manager, and the pools that it makes.

`divisors_nonzero_iff`: every pool that the manager makes divides by no zero, when it is made and in whatever
is called on it, and finds every shard that it asks for, if and only if the number is not zero.
-/

namespace TrpcMysql

open Function Conc

/-! ## The configuration -/

/-- `MysqlClientConf`. -/
structure MysqlClientConf where
  userName : String := ""
  password : String := ""
  dbname : String := ""
  charSet : String := "utf8mb4"
  threadNum : ℕ := 4
  threadBindCore : String := ""
  numShardGroup : UInt32 := 4
  deriving DecidableEq

/-- What `decode` uses of yaml-cpp: the child of a key, if there is one, and `as`, which throws if a node is
no value of the type. -/
structure Yaml (Node : Type) where
  child : Node → String → Option Node
  asString : Node → Option String
  asSize : Node → Option ℕ
  asUInt32 : Node → Option UInt32

/-- `if (node[key]) field = node[key].as<T>();` -/
def Yaml.field {Node α : Type} (yaml : Yaml Node) (node : Node) (key : String) (as : Node → Option α) (old : α) :
    Option α :=
  match yaml.child node key with
  | some n => as n
  | none => some old

/-- `decode`; `none` is an exception. -/
def decode {Node : Type} (yaml : Yaml Node) (node : Node) (conf : MysqlClientConf) : Option MysqlClientConf := do
  let userName ← yaml.field node "user_name" yaml.asString conf.userName
  let password ← yaml.field node "password" yaml.asString conf.password
  let dbname ← yaml.field node "dbname" yaml.asString conf.dbname
  let charSet ← yaml.field node "char_set" yaml.asString conf.charSet
  let threadNum ← yaml.field node "thread_num" yaml.asSize conf.threadNum
  let threadBindCore ← yaml.field node "thread_bind_core" yaml.asString conf.threadBindCore
  let numShardGroup ← yaml.field node "num_shard_group" yaml.asUInt32 conf.numShardGroup
  return { userName, password, dbname, charSet, threadNum, threadBindCore, numShardGroup }

/-- The fields of `ServiceProxyOption` that `InitManager` reads. -/
structure ServiceProxyOption where
  maxConnNum : UInt32
  idleTime : UInt64

/-- `InitManager`: the manager that a proxy without one makes. -/
def initManager (option : ServiceProxyOption) (conf : MysqlClientConf) : ManagerSt where
  option := {
    maxSize := option.maxConnNum.toNat
    maxIdleTime := option.idleTime.toNat
    numShardGroup := conf.numShardGroup.toNat
    username := conf.userName
    dbname := conf.dbname
    password := conf.password
    charSet := conf.charSet }

/-! ## A pool and all that may be called on it -/

/-- The constructor of a pool; `none` is the division by zero. -/
def ShardsSt.construct (option : MysqlExecutorPoolOption) : Option ShardsSt :=
  if option.numShardGroup = 0 then none else some (ShardsSt.new option)

/-- The functions of a pool. -/
inductive PoolFunction where
  | getExecutor
  | reclaim (ret : ℤ) (e : ExecId)
  | stop
  | destroy

def PoolFunction.prog : PoolFunction → SProg Unit
  | getExecutor => do
    let _ ← Shards.getExecutor
  | reclaim ret e => Shards.reclaim ret e
  | stop => Shards.stop
  | destroy => Shards.destroy

/-- A pool whose functions are called in any order, and at the same time. -/
def poolFunctions : System ShardsSt ShardsOp ShardsAnswer PoolFunction Unit ShardsOp.Reply where
  exec := shardsExec
  prog := PoolFunction.prog

/-- The shard that a step is about. -/
def ShardsOp.shard : ShardsOp → Option ℕ
  | lock k | unlock k | popBack k | listSize k | pushBack k _ | copyShard k | swapShard k => some k
  | _ => none

/-- The step divides by no zero, and its shard is one of `n`. -/
def ShardsOp.Sound (n : ℕ) (o : ShardsOp) : Prop := o ≠ .crash ∧ ∀ k ∈ o.shard, k < n

/-- No guard. -/
def anyCalls {W Op A C R : Type} {Resp : Op → Type} : Guard W Op A C R Resp where
  start _ _ := True
  act _ _ _ _ _ := True

/-- The pool can be made, and no call on it comes to a step that is not sound. -/
def PoolFaultless (option : MysqlExecutorPoolOption) : Prop :=
  ∃ pool, ShardsSt.construct option = some pool ∧ ∀ cf, poolFunctions.Reach anyCalls pool cf →
    ∀ f ∈ cf.frames, ∀ o ∈ f.prog.next, o.Sound option.numShardGroup

/-- So it is for all pools that the manager makes. -/
def PoolsFaultless (m : ManagerSt) : Prop :=
  ∀ cf, managerSystem.Reach anyCalls m cf →
    ∀ f ∈ cf.frames, ∀ option addr, f.prog.next = some (.newPool option addr) → PoolFaultless option

/-! ## The steps of a program -/

/-- The reply to `getOption` has `n` shards. -/
def ShardsOp.Fits (n : ℕ) : (o : ShardsOp) → o.Reply → Prop
  | getOption, option => option.numShardGroup = n
  | _, _ => True

/-- Every step of the program is sound, with `n` shards. -/
abbrev Within {α : Type} (n : ℕ) (p : SProg α) : Prop := p.Within (fun o r => o.Fits n r) (ShardsOp.Sound n)

section Within

variable {α β : Type} {n k : ℕ} {e : ExecId}

/-- A step that is about no shard. -/
theorem within_free {o : ShardsOp} {f : o.Reply → SProg β} (hc : o ≠ .crash) (hs : o.shard = none)
    (hf : ∀ r, o.Fits n r → Within n (f r)) : Within n (sop o >>= f) := by
  refine ⟨⟨hc, ?_⟩, hf⟩
  rw [hs]
  simp

/-- A step on shard `k`. -/
theorem within_shard {o : ShardsOp} {f : o.Reply → SProg β} (hc : o ≠ .crash) (hs : o.shard = some k) (hk : k < n)
    (hf : ∀ r, o.Fits n r → Within n (f r)) : Within n (sop o >>= f) := by
  refine ⟨⟨hc, ?_⟩, hf⟩
  rw [hs]
  simpa using hk

theorem within_last {o : ShardsOp} (hc : o ≠ .crash) (hs : o.shard = none) : Within n (sop o) := by
  rw [← bind_pure (sop o)]
  exact within_free hc hs fun _ _ => trivial

theorem within_last_shard {o : ShardsOp} (hc : o ≠ .crash) (hs : o.shard = some k) (hk : k < n) :
    Within n (sop o) := by
  rw [← bind_pure (sop o)]
  exact within_shard hc hs hk fun _ _ => trivial

theorem isIdleTimeout_within : Within n (Shards.isIdleTimeout e) := by
  unfold Shards.isIdleTimeout
  apply within_free (by simp) rfl
  intro option _
  split
  · trivial
  · exact within_free (by simp) rfl fun _ _ => trivial

theorem popAlive_within (hk : k < n) (tries : ℕ) : Within n (Shards.popAlive k tries) := by
  induction tries with
  | zero => trivial
  | succ tries ih =>
    unfold Shards.popAlive
    apply within_shard (by simp) rfl hk
    intro _ _
    apply within_shard (by simp) rfl hk
    intro r _
    cases r with
    | none => exact within_shard (by simp) rfl hk fun _ _ => trivial
    | some e =>
      have hrest : Within n (do
          sop (.unlock k)
          sop (.close e)
          Shards.popAlive k tries) := by
        apply within_shard (by simp) rfl hk
        intro _ _
        exact within_free (by simp) rfl fun _ _ => ih
      apply within_free (by simp) rfl
      intro alive _
      cases alive with
      | false => exact hrest
      | true =>
        apply Prog.Within.bind isIdleTimeout_within
        intro idle
        cases idle with
        | true => exact hrest
        | false =>
          apply within_free (by simp) rfl
          intro _ _
          exact within_shard (by simp) rfl hk fun _ _ => trivial

theorem connectNew_within (shardId : ℕ) : Within n (Shards.connectNew shardId) := by
  have hcreate : Within n (Shards.createExecutor shardId) :=
    within_free (by simp) rfl fun _ _ => within_last (by simp) rfl
  apply Prog.Within.bind hcreate
  intro e
  apply within_free (by simp) rfl
  intro connected _
  cases connected with
  | false => trivial
  | true =>
    apply within_free (by simp) rfl
    intro _ _
    exact within_free (by simp) rfl fun _ _ => trivial

theorem getExecutor_within (hn : 0 < n) : Within n Shards.getExecutor := by
  unfold Shards.getExecutor
  apply within_free (by simp) rfl
  intro shardId _
  apply within_free (by simp) rfl
  intro option hoption
  have hoption : option.numShardGroup = n := hoption
  rw [hoption, if_neg (Nat.ne_of_gt hn)]
  apply Prog.Within.bind (popAlive_within (Nat.mod_lt _ hn) 3)
  intro r
  cases r with
  | none => exact connectNew_within shardId
  | some e => trivial

theorem refuse_within : Within n (Shards.refuse e) :=
  within_free (by simp) rfl fun _ _ => within_last (by simp) rfl

theorem reclaim_within (hn : 0 < n) (ret : ℤ) : Within n (Shards.reclaim ret e) := by
  unfold Shards.reclaim
  split
  · apply within_free (by simp) rfl
    intro executorId _
    apply within_free (by simp) rfl
    intro option hoption
    have hoption : option.numShardGroup = n := hoption
    rw [hoption, if_neg (Nat.ne_of_gt hn)]
    have hk : executorId / 2 ^ 32 % 2 ^ 32 % n < n := Nat.mod_lt _ hn
    -- the executor is refused once the shard is unlocked
    have hrest : Within n (do
        sop (.unlock (executorId / 2 ^ 32 % 2 ^ 32 % n))
        Shards.refuse e) := within_shard (by simp) rfl hk fun _ _ => refuse_within
    apply within_shard (by simp) rfl hk
    intro _ _
    apply within_shard (by simp) rfl hk
    intro size _
    apply within_free (by simp) rfl
    intro maxNumPerShard _
    split
    · apply within_free (by simp) rfl
      intro executorNum _
      split
      · apply within_free (by simp) rfl
        intro _ _
        apply within_shard (by simp) rfl hk
        intro _ _
        exact within_last_shard (by simp) rfl hk
      · exact hrest
    · exact hrest
  · exact refuse_within

theorem closeAll_within (es : List ExecId) : Within n (Shards.closeAll es) := by
  induction es with
  | nil => trivial
  | cons e es ih => exact within_free (by simp) rfl fun _ _ => ih

theorem dropAll_within (es : List ExecId) : Within n (Shards.dropAll es) := by
  induction es with
  | nil => trivial
  | cons e es ih => exact within_free (by simp) rfl fun _ _ => ih

theorem stopShards_within {ks : List ℕ} (hks : ∀ k ∈ ks, k < n) : Within n (Shards.stopShards ks) := by
  induction ks with
  | nil => trivial
  | cons k ks ih =>
    have hk : k < n := hks k List.mem_cons_self
    apply within_shard (by simp) rfl hk
    intro _ _
    apply within_shard (by simp) rfl hk
    intro es _
    apply within_shard (by simp) rfl hk
    intro _ _
    exact Prog.Within.bind (closeAll_within es) fun _ => ih fun k hk => hks k (List.mem_cons_of_mem _ hk)

theorem destroyShards_within {ks : List ℕ} (hks : ∀ k ∈ ks, k < n) : Within n (Shards.destroyShards ks) := by
  induction ks with
  | nil => trivial
  | cons k ks ih =>
    have hk : k < n := hks k List.mem_cons_self
    apply within_shard (by simp) rfl hk
    intro _ _
    apply within_shard (by simp) rfl hk
    intro es _
    apply within_shard (by simp) rfl hk
    intro _ _
    exact Prog.Within.bind (dropAll_within es) fun _ => ih fun k hk => hks k (List.mem_cons_of_mem _ hk)

/-- With a shard at least, every function keeps to the shards. -/
theorem PoolFunction.within (hn : 0 < n) (c : PoolFunction) : Within n c.prog := by
  cases c with
  | getExecutor => exact Prog.Within.bind (getExecutor_within hn) fun _ => trivial
  | reclaim ret e => exact reclaim_within hn ret
  | stop =>
    apply within_free (by simp) rfl
    intro _ _
    apply within_free (by simp) rfl
    intro option hoption
    have hoption : option.numShardGroup = n := hoption
    rw [hoption]
    exact stopShards_within fun k hk => List.mem_range.1 hk
  | destroy =>
    apply within_free (by simp) rfl
    intro option hoption
    have hoption : option.numShardGroup = n := hoption
    rw [hoption]
    exact destroyShards_within fun k hk => List.mem_range.1 hk

end Within

/-! ## Every run -/

/-- A step does not change the option, and its reply fits. -/
theorem shardsExec_option {i : ℕ} {o : ShardsOp} {a : ShardsAnswer} {m m' : ShardsSt} {r : o.Reply}
    (he : shardsExec i o a m = some (r, m')) : m'.option = m.option ∧ o.Fits m.option.numShardGroup r := by
  cases o <;> simp only [shardsExec, ShardsSt.setShard, ShardsSt.setConn, ShardsSt.setConnected] at he
  case lock =>
    split at he
    · cases he
    · cases he
      exact ⟨rfl, trivial⟩
  case popBack =>
    split at he <;> cases he <;> exact ⟨rfl, trivial⟩
  case getOption =>
    cases he
    exact ⟨rfl, rfl⟩
  case crash => cases he
  all_goals
    cases he
    exact ⟨rfl, trivial⟩

theorem poolFaultless_iff {option : MysqlExecutorPoolOption} : PoolFaultless option ↔ option.numShardGroup ≠ 0 := by
  constructor
  · rintro ⟨pool, hpool, -⟩ h0
    rw [ShardsSt.construct, if_pos h0] at hpool
    cases hpool
  · intro hn
    refine ⟨_, if_neg hn, fun cf hr f hf o ho => ?_⟩
    have hreach := hr.within (I := fun m => m.option.numShardGroup = option.numShardGroup) rfl
      (fun c => PoolFunction.within (Nat.pos_of_ne_zero hn) c) fun i o a m r m' hm he => by
        obtain ⟨hoption, hfits⟩ := shardsExec_option (i := i) he
        rw [hm] at hfits
        exact ⟨by rw [hoption, hm], hfits⟩
    exact (hreach.2 f hf).next ho

/-! ## The pools of a manager -/

/-- The reply to `getOption` is the manager's option. -/
def ManagerOp.Fits (opt : MysqlExecutorPoolOption) : (o : ManagerOp) → o.Reply → Prop
  | getOption, option => option = opt
  | _, _ => True

/-- A pool is made with the manager's option. -/
def ManagerOp.Makes (opt : MysqlExecutorPoolOption) : ManagerOp → Prop
  | newPool option _ => option = opt
  | _ => True

section Managers

variable {opt : MysqlExecutorPoolOption}

theorem managerExec_option {i : ℕ} {o : ManagerOp} {m m' : ManagerSt} {r : o.Reply}
    (he : managerExec i o () m = some (r, m')) : m'.option = m.option ∧ o.Fits m.option r := by
  cases o <;> simp only [managerExec, ManagerSt.setPool] at he
  case newPool =>
    split at he
    · cases he
    · cases he
      exact ⟨rfl, trivial⟩
  case mapGetOrInsert =>
    split at he <;> cases he <;> exact ⟨rfl, trivial⟩
  case getOption =>
    cases he
    exact ⟨rfl, rfl⟩
  all_goals
    cases he
    exact ⟨rfl, trivial⟩

theorem managerCall_within (c : ManagerCall) :
    c.prog.Within (fun o r => o.Fits opt r) (ManagerOp.Makes opt) := by
  have hstop : ∀ ps : List PoolId, (Manager.stopAll ps).Within (fun o r => o.Fits opt r) (ManagerOp.Makes opt) := by
    intro ps
    induction ps with
    | nil => trivial
    | cons p ps ih => exact ⟨trivial, fun _ _ => ih⟩
  have hdestroy : ∀ ps : List PoolId,
      (Manager.destroyAll ps).Within (fun o r => o.Fits opt r) (ManagerOp.Makes opt) := by
    intro ps
    induction ps with
    | nil => trivial
    | cons p ps ih => exact ⟨trivial, fun _ _ => ⟨trivial, fun _ _ => ih⟩⟩
  cases c with
  | get addr =>
    refine Prog.Within.bind ⟨trivial, fun found _ => ?_⟩ fun _ => trivial
    cases found with
    | some p => trivial
    | none =>
      refine ⟨trivial, fun option hoption => ⟨hoption, fun pool _ => ⟨trivial, fun other _ => ?_⟩⟩⟩
      cases other with
      | none => trivial
      | some p => exact ⟨trivial, fun _ _ => trivial⟩
  | shutdown =>
    refine Prog.Within.bind ⟨trivial, fun items _ => hstop _⟩ fun _ => ?_
    refine Prog.Within.bind ⟨trivial, fun items _ => ?_⟩ fun _ => trivial
    exact (hdestroy _).bind fun _ => ⟨trivial, fun _ _ => ⟨trivial, fun _ _ => trivial⟩⟩

/-- All pools of a manager have its option, and it makes a pool. -/
theorem poolsFaultless_iff {m : ManagerSt} (hm : m.executorPools = []) :
    PoolsFaultless m ↔ PoolFaultless m.option := by
  constructor
  · intro h
    have h₁ : managerSystem.Reach anyCalls m _ := System.Reach.init.step (.start (.get {})) trivial rfl
    have h₂ := h₁.step (.act 0 ()) trivial rfl
    have hnone : m.find (endpoint {}) = none := by
      rw [ManagerSt.find, hm]
      rfl
    rw [hnone] at h₂
    have h₃ := h₂.step (.act 0 ()) trivial rfl
    exact h _ h₃ _ List.mem_cons_self m.option {} rfl
  · intro h cf hr f hf option addr ho
    have hreach := hr.within (I := fun m' => m'.option = m.option) rfl (fun c => managerCall_within c)
      fun i o a m₁ r m₂ hm₁ he => by
        obtain ⟨hoption, hfits⟩ := managerExec_option (i := i) he
        rw [hm₁] at hfits
        exact ⟨by rw [hoption, hm₁], hfits⟩
    obtain rfl : option = m.option := (hreach.2 f hf).next ho
    exact h

end Managers

/-- **For every configuration that the decoder accepts: whatever is called on the manager and on the pools that
it makes, at the same time and in any order, no division and no remainder is by zero, and every shard asked
for is there, if and only if the configured number of shards is not zero.** -/
theorem divisors_nonzero_iff {Node : Type} (yaml : Yaml Node) (node : Node) (option : ServiceProxyOption) :
    ∀ conf ∈ decode yaml node {}, PoolsFaultless (initManager option conf) ↔ conf.numShardGroup ≠ 0 := by
  rintro conf -
  rw [poolsFaultless_iff rfl, poolFaultless_iff]
  show conf.numShardGroup.toNat ≠ 0 ↔ _
  rw [ne_eq, ne_eq, ← UInt32.toNat_inj]
  rfl

/-- The scalars and maps of scalars of YAML, and numbers of one digit. -/
def scalars : Yaml (String ⊕ List (String × String)) where
  child node key :=
    match node with
    | .inl _ => none
    | .inr fields => (fields.lookup key).map Sum.inl
  asString node := node.getLeft?
  asSize node := node.getLeft?.bind fun s => (List.range 10).find? fun n => toString n = s
  asUInt32 node := (node.getLeft?.bind fun s => (List.range 10).find? fun n => toString n = s).map UInt32.ofNat

/-- A configuration with a user name only. -/
theorem divisors_default : PoolsFaultless (initManager ⟨12, 0⟩ { userName := "root" }) ↔ (4 : UInt32) ≠ 0 :=
  divisors_nonzero_iff scalars (.inr [("user_name", "root")]) ⟨12, 0⟩ { userName := "root" } (by decide)

/-- `num_shard_group: 0`. -/
theorem divisor_zero : ¬ ∀ (Node : Type) (yaml : Yaml Node) (node : Node) (conf : MysqlClientConf)
    (option : ServiceProxyOption), decode yaml node {} = some conf → PoolsFaultless (initManager option conf) := by
  intro h
  have hall := h _ scalars (.inr [("num_shard_group", "0")]) { numShardGroup := 0 } ⟨12, 0⟩ (by decide +kernel)
  exact poolFaultless_iff.1 ((poolsFaultless_iff rfl).1 hall) rfl

end TrpcMysql
