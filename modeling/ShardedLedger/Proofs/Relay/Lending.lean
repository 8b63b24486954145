import Mathlib.Algebra.Group.Nat.Defs
import Mathlib.Data.List.Nodup
import ShardedLedger.Relay.ConnectionPool

namespace ShardedLedger

namespace ConnectionPool

-- The oldest free connection once more, or a new one where none is free or too few are open.
theorem acquire_cases (pool : ConnectionPool) :
    (∃ connection free, pool.free = connection :: free ∧
      pool.acquire = ({ pool with free }, ⟨connection.id, connection.useCount + 1⟩)) ∨
    (pool.free = [] ∨ pool.live < pool.limits.minConnections) ∧ pool.acquire = pool.openNew := by
  unfold acquire
  split
  next hnone => exact .inr ⟨.inl hnone, rfl⟩
  next connection free hfree =>
    split
    next => exact .inl ⟨connection, free, hfree, rfl⟩
    next hfew => exact .inr ⟨.inr (Nat.lt_of_not_le hfew), rfl⟩

end ConnectionPool

-- A pool with the connections that are out, and what has become of it so far: the numbers of the
-- connections as they were handed out, how many were discarded, and the most that were out at
-- one time.
structure Lending where
  pool : ConnectionPool
  out : List Connection
  lent : List Nat
  discarded : Nat
  peak : Nat
  deriving DecidableEq

namespace Lending

def start (endpoint : String) (limits : PoolLimits) : Lending :=
  ⟨.new endpoint limits, [], [], 0, 0⟩

def acquire (lending : Lending) : Lending where
  pool := lending.pool.acquire.1
  out := lending.pool.acquire.2 :: lending.out
  lent := lending.pool.acquire.2.id :: lending.lent
  discarded := lending.discarded
  peak := max lending.peak (lending.out.length + 1)

def release (lending : Lending) (connection : Connection) : Lending :=
  { lending with
    pool := lending.pool.release connection
    out := lending.out.erase connection }

def discard (lending : Lending) (connection : Connection) : Lending :=
  { lending with
    pool := lending.pool.discard
    out := lending.out.erase connection
    discarded := lending.discarded + 1 }

-- What requests do with a pool, in any order. A new connection may turn out to be impossible,
-- and then nothing happens.
inductive Step (lending : Lending) : Lending → Prop where
  | refused : Step lending lending
  | acquired : Step lending lending.acquire
  | released (connection : Connection) (hout : connection ∈ lending.out) :
      Step lending (lending.release connection)
  | discarded (connection : Connection) (hout : connection ∈ lending.out) :
      Step lending (lending.discard connection)

inductive Run (first : Lending) : Lending → Prop where
  | start : Run first first
  | step {lending after : Lending} (hrun : Run first lending) (hstep : Step lending after) :
      Run first after

def connections (lending : Lending) : List Connection := lending.out ++ lending.pool.free

-- No connection is lost or doubled, each has been handed out as often as it says, and there are
-- never more than were needed.
structure Conserves (limits : PoolLimits) (lending : Lending) : Prop where
  limits_eq : lending.pool.limits = limits
  distinct : (lending.connections.map (·.id)).Nodup
  known : ∀ connection ∈ lending.connections, connection.id < lending.pool.created
  live_eq : lending.pool.live = lending.pool.free.length + lending.out.length
  created_eq : lending.pool.created =
    lending.pool.live + lending.pool.recycled + lending.discarded
  created_le : lending.pool.created ≤ lending.lent.length
  uses : ∀ connection ∈ lending.connections,
    lending.lent.count connection.id = connection.useCount
  reusable : ∀ connection ∈ lending.pool.free, connection.useCount < limits.maxUses.toNat
  lent_known : ∀ id ∈ lending.lent, id < lending.pool.created
  lent_le : ∀ id, lending.lent.count id ≤ max 1 limits.maxUses.toNat
  live_le : lending.pool.live ≤ max limits.minConnections lending.peak

section Steps

variable {limits : PoolLimits} {lending after : Lending} {connection : Connection}
  {free : List Connection}

theorem conserves_start (endpoint : String) : Conserves limits (start endpoint limits) where
  limits_eq := rfl
  distinct := .nil
  known connection hmem := by cases hmem
  live_eq := rfl
  created_eq := rfl
  created_le := Nat.zero_le _
  uses connection hmem := by cases hmem
  reusable connection hmem := by cases hmem
  lent_known id hmem := by cases hmem
  lent_le id := Nat.zero_le _
  live_le := Nat.zero_le _

-- A number that none of the others has does not change how often they were handed out.
theorem Conserves.uses_cons (h : Conserves limits lending) {id : Nat}
    (hmem : connection ∈ lending.connections) (hne : connection.id ≠ id) :
    (id :: lending.lent).count connection.id = connection.useCount := by
  rw [List.count_cons_of_ne hne.symm]
  exact h.uses connection hmem

theorem Conserves.lent_cons_le (h : Conserves limits lending) {id : Nat}
    (hid : lending.lent.count id + 1 ≤ max 1 limits.maxUses.toNat) (other : Nat) :
    (id :: lending.lent).count other ≤ max 1 limits.maxUses.toNat := by
  by_cases he : id = other
  · subst he
    rw [List.count_cons_self]
    exact hid
  · rw [List.count_cons_of_ne he]
    exact h.lent_le other

-- The connection that goes out is the one that was free, with one more use.
theorem Conserves.reused (h : Conserves limits lending)
    (hfree : lending.pool.free = connection :: free)
    (hacquire : lending.pool.acquire =
      ({ lending.pool with free }, ⟨connection.id, connection.useCount + 1⟩)) :
    Conserves limits lending.acquire := by
  have hall : lending.connections.Perm (connection :: (lending.out ++ free)) := by
    rw [connections, hfree]
    exact List.perm_middle
  have hothers : ∀ other ∈ lending.out ++ free, other ∈ lending.connections :=
    fun other hother => hall.mem_iff.mpr (List.mem_cons_of_mem connection hother)
  have hself : connection ∈ lending.connections := hall.mem_iff.mpr (by simp)
  have hdistinct : ((connection :: (lending.out ++ free)).map (·.id)).Nodup :=
    (hall.map _).nodup_iff.mp h.distinct
  have hapart : ∀ other ∈ lending.out ++ free, other.id ≠ connection.id := by
    intro other hother he
    exact (List.nodup_cons.mp hdistinct).1 (List.mem_map.mpr ⟨other, hother, he⟩)
  have huses : lending.lent.count connection.id = connection.useCount := h.uses connection hself
  have hlimit : connection.useCount < limits.maxUses.toNat :=
    h.reusable connection (hfree ▸ List.mem_cons_self)
  unfold acquire
  rw [hacquire]
  constructor <;> dsimp only [connections, List.cons_append]
  case limits_eq => exact h.limits_eq
  case distinct => exact hdistinct
  case known =>
    intro other hother
    rcases List.mem_cons.mp hother with rfl | hother
    · exact h.known connection hself
    · exact h.known other (hothers other hother)
  case live_eq =>
    have hlive := h.live_eq
    rw [hfree, List.length_cons] at hlive
    rw [List.length_cons]
    omega
  case created_eq => exact h.created_eq
  case created_le => exact Nat.le_succ_of_le h.created_le
  case uses =>
    intro other hother
    rcases List.mem_cons.mp hother with rfl | hother
    · show (connection.id :: lending.lent).count connection.id = connection.useCount + 1
      rw [List.count_cons_self, huses]
    · exact h.uses_cons (hothers other hother) (hapart other hother)
  case reusable =>
    exact fun other hother => h.reusable other (hfree ▸ List.mem_cons_of_mem connection hother)
  case lent_known =>
    intro id hid
    rcases List.mem_cons.mp hid with rfl | hid
    · exact h.known connection hself
    · exact h.lent_known id hid
  case lent_le => exact h.lent_cons_le (by omega)
  case live_le =>
    have hlive := h.live_le
    omega

-- A new connection is opened only if all the others are out or if there are too few of them.
theorem Conserves.opened (h : Conserves limits lending)
    (hneeded : lending.pool.free = [] ∨ lending.pool.live < lending.pool.limits.minConnections)
    (hacquire : lending.pool.acquire = lending.pool.openNew) :
    Conserves limits lending.acquire := by
  have hunknown : ∀ other ∈ lending.connections, other.id ≠ lending.pool.created :=
    fun other hother => Nat.ne_of_lt (h.known other hother)
  have hunlent : lending.lent.count lending.pool.created = 0 := by
    rw [List.count_eq_zero]
    exact fun hlent => Nat.lt_irrefl _ (h.lent_known _ hlent)
  have hlive := h.live_eq
  unfold acquire
  rw [hacquire, ConnectionPool.openNew]
  constructor <;> dsimp only [connections, List.cons_append, List.map_cons]
  case limits_eq => exact h.limits_eq
  case distinct =>
    refine List.nodup_cons.mpr ⟨fun hmem => ?_, h.distinct⟩
    obtain ⟨other, hother, hid⟩ := List.mem_map.mp hmem
    exact hunknown other hother hid
  case known =>
    intro other hother
    rcases List.mem_cons.mp hother with rfl | hother
    · exact Nat.lt_succ_self _
    · exact Nat.lt_succ_of_lt (h.known other hother)
  case live_eq =>
    rw [List.length_cons]
    omega
  case created_eq =>
    have hcreated := h.created_eq
    omega
  case created_le => exact Nat.succ_le_succ h.created_le
  case uses =>
    intro other hother
    rcases List.mem_cons.mp hother with rfl | hother
    · show (lending.pool.created :: lending.lent).count lending.pool.created = 1
      rw [List.count_cons_self, hunlent]
    · exact h.uses_cons hother (hunknown other hother)
  case reusable => exact h.reusable
  case lent_known =>
    intro id hid
    rcases List.mem_cons.mp hid with rfl | hid
    · exact Nat.lt_succ_self _
    · exact Nat.lt_succ_of_lt (h.lent_known id hid)
  case lent_le => exact h.lent_cons_le (by omega)
  case live_le =>
    rcases hneeded with hnone | hfew
    · rw [hnone, List.length_nil] at hlive
      omega
    · rw [h.limits_eq] at hfew
      omega

theorem Conserves.acquire (h : Conserves limits lending) : Conserves limits lending.acquire := by
  rcases lending.pool.acquire_cases with ⟨connection, free, hfree, hacquire⟩ | ⟨hneeded, hacquire⟩
  · exact h.reused hfree hacquire
  · exact h.opened hneeded hacquire

theorem perm_out (hout : connection ∈ lending.out) :
    lending.connections.Perm (connection :: (lending.out.erase connection ++ lending.pool.free)) :=
  (List.perm_cons_erase hout).append_right _

theorem length_out (hout : connection ∈ lending.out) :
    (lending.out.erase connection).length + 1 = lending.out.length :=
  (List.perm_cons_erase hout).length_eq.symm

-- A connection that comes back and may be used again is the last of the free ones.
theorem Conserves.returned (h : Conserves limits lending) (hout : connection ∈ lending.out)
    (hkept : lending.pool.keepsAlive connection = true) :
    Conserves limits (lending.release connection) := by
  have hall : (lending.out.erase connection ++ (lending.pool.free ++ [connection])).Perm
      lending.connections := by
    rw [← List.append_assoc]
    exact List.perm_append_comm.trans (perm_out hout).symm
  have hlength := length_out hout
  have hlimit : connection.useCount < limits.maxUses.toNat := by
    rw [← h.limits_eq]
    exact of_decide_eq_true hkept
  unfold release ConnectionPool.release
  rw [if_pos hkept]
  constructor <;> dsimp only [connections]
  case limits_eq => exact h.limits_eq
  case distinct => exact (hall.map _).nodup_iff.mpr h.distinct
  case known => exact fun other hother => h.known other (hall.mem_iff.mp hother)
  case live_eq =>
    have hlive := h.live_eq
    rw [List.length_append, List.length_singleton]
    omega
  case created_eq => exact h.created_eq
  case created_le => exact h.created_le
  case uses => exact fun other hother => h.uses other (hall.mem_iff.mp hother)
  case reusable =>
    intro other hother
    rcases List.mem_append.mp hother with hother | hother
    · exact h.reusable other hother
    · rw [List.mem_singleton.mp hother]
      exact hlimit
  case lent_known => exact h.lent_known
  case lent_le => exact h.lent_le
  case live_le => exact h.live_le

-- A connection that is closed counts as recycled or as discarded.
theorem Conserves.closed (h : Conserves limits lending) (hout : connection ∈ lending.out)
    (recycled discarded : Nat)
    (hcounted : recycled + discarded = lending.pool.recycled + lending.discarded + 1) :
    Conserves limits { lending with
      pool := { lending.pool.discard with recycled }
      out := lending.out.erase connection
      discarded } := by
  have hall := perm_out hout
  have hothers : ∀ other ∈ lending.out.erase connection ++ lending.pool.free,
      other ∈ lending.connections :=
    fun other hother => hall.mem_iff.mpr (List.mem_cons_of_mem connection hother)
  have hlength := length_out hout
  have hlive := h.live_eq
  unfold ConnectionPool.discard
  constructor <;> dsimp only [connections]
  case limits_eq => exact h.limits_eq
  case distinct =>
    have hdistinct := (hall.map (·.id)).nodup_iff.mp h.distinct
    exact (List.nodup_cons.mp hdistinct).2
  case known => exact fun other hother => h.known other (hothers other hother)
  case live_eq => omega
  case created_eq =>
    have hcreated := h.created_eq
    omega
  case created_le => exact h.created_le
  case uses => exact fun other hother => h.uses other (hothers other hother)
  case reusable => exact h.reusable
  case lent_known => exact h.lent_known
  case lent_le => exact h.lent_le
  case live_le =>
    have hbound := h.live_le
    omega

theorem Conserves.step (h : Conserves limits lending) (hstep : Step lending after) :
    Conserves limits after := by
  cases hstep with
  | refused => exact h
  | acquired => exact h.acquire
  | released connection hout =>
      by_cases hkept : lending.pool.keepsAlive connection = true
      · exact h.returned hout hkept
      · have hclosed := h.closed hout (lending.pool.recycled + 1) lending.discarded (by omega)
        unfold release ConnectionPool.release
        rwa [if_neg hkept]
  | discarded connection hout =>
      exact h.closed hout lending.pool.recycled (lending.discarded + 1) (by omega)

theorem Run.conserves {endpoint : String} (hrun : Run (.start endpoint limits) lending) :
    Conserves limits lending := by
  induction hrun with
  | start => exact conserves_start endpoint
  | step _ hstep ih => exact ih.step hstep

-- A connection that is out is not free, so it is again only if it is put back.
theorem Conserves.keepsAlive_eq_false_iff (h : Conserves limits lending)
    (hout : connection ∈ lending.out) :
    lending.pool.keepsAlive connection = false ↔
      connection.id ∉ (lending.pool.release connection).free.map (·.id) ∧
        (lending.pool.release connection).live + 1 = lending.pool.live := by
  have hlength := length_out hout
  have hlive := h.live_eq
  unfold ConnectionPool.release ConnectionPool.discard
  by_cases hkept : lending.pool.keepsAlive connection = true
  · rw [if_pos hkept, hkept]
    simp
  · have hapart : connection.id ∉ lending.pool.free.map (·.id) := by
      intro hmem
      have hdistinct := ((perm_out hout).map (·.id)).nodup_iff.mp h.distinct
      rw [List.map_cons, List.map_append] at hdistinct
      exact (List.nodup_cons.mp hdistinct).1 (List.mem_append_right _ hmem)
    rw [if_neg hkept]
    simp only [hkept, true_iff]
    exact ⟨hapart, by omega⟩

end Steps

-- Whatever requests do with a pool, and in whatever order: no connection is lost, handed out to
-- two at once or used more often than it may, no counter runs over, and no more connections are
-- open than at least asked for or out at one time. What the pool counts besides the uses of a
-- connection is at most how often it has handed one out, which no relay does 2 ^ 64 times.
theorem lends_within_limits {endpoint : String} {limits : PoolLimits} {lending : Lending}
    (hrun : Run (.start endpoint limits) lending) :
    ((lending.out ++ lending.pool.free).map (·.id)).Nodup ∧
      lending.pool.live = lending.pool.free.length + lending.out.length ∧
      lending.pool.created = lending.pool.live + lending.pool.recycled + lending.discarded ∧
      (∀ connection ∈ lending.pool.free, connection.useCount < limits.maxUses.toNat ∧
        connection.useCount + 1 < 2 ^ 32) ∧
      (∀ connection ∈ lending.out, 1 ≤ lending.pool.live ∧
        (lending.pool.keepsAlive connection = false ↔
          connection.id ∉ (lending.pool.release connection).free.map (·.id) ∧
            (lending.pool.release connection).live + 1 = lending.pool.live)) ∧
      lending.pool.free.length ≤ lending.pool.live ∧
      (∀ id, lending.lent.count id ≤ max 1 limits.maxUses.toNat) ∧
      lending.pool.live ≤ max limits.minConnections lending.peak ∧
      lending.pool.created ≤ lending.lent.length := by
  have hconserves := hrun.conserves
  have hlive := hconserves.live_eq
  refine ⟨hconserves.distinct, hlive, hconserves.created_eq, fun connection hfree => ?_,
    fun connection hout => ⟨?_, hconserves.keepsAlive_eq_false_iff hout⟩, by omega,
    hconserves.lent_le, hconserves.live_le, hconserves.created_le⟩
  · have hreusable := hconserves.reusable connection hfree
    have hword : limits.maxUses.toNat < 2 ^ 32 := limits.maxUses.toNat_lt
    exact ⟨hreusable, by omega⟩
  · have hlength := length_out hout
    omega

-- Two connections are open; the first one is out for the last time.
def used : Lending :=
  ((start "shard:80" ⟨1, 2⟩).acquire.acquire.release ⟨0, 1⟩).acquire

theorem run_used : Run (.start "shard:80" ⟨1, 2⟩) used := by
  refine .step (.step (.step (.step .start .acquired) .acquired) (.released ⟨0, 1⟩ ?_)) .acquired
  decide

theorem lends_within_limits_used :
    used.out = [⟨0, 2⟩, ⟨1, 1⟩] ∧ used.lent = [0, 1, 0] ∧
      (∀ id, used.lent.count id ≤ 2) ∧
      ((0 : Nat) ∉ (used.pool.release ⟨0, 2⟩).free.map (·.id) ∧
        (used.pool.release ⟨0, 2⟩).live + 1 = used.pool.live) ∧
      used.pool.live ≤ max 1 used.peak := by
  obtain ⟨-, -, -, -, hout, -, hlent, hlive, -⟩ := lends_within_limits run_used
  have hlast : used.pool.keepsAlive ⟨0, 2⟩ = false := by decide
  have hmem : ⟨0, 2⟩ ∈ used.out := by decide
  exact ⟨by decide, by decide, hlent, (hout _ hmem).2.mp hlast, hlive⟩

end Lending

end ShardedLedger
