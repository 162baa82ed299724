import PulseEngine.Library.Run

/-!
# Resource pools

`ResourcePool` of `resourcepool.h` with both of its flags, and with the pools behind it: a chain of
pools is a pool, its upstream, the upstream of that, and so on. A physical resource is the number of
its creation; what it was made from is kept in `created`, what the callers have in `handed`. A
descriptor is compared by the equality that the pool was made with.
-/

namespace PulseEngine.Graphics

open Library

structure PoolKind where
  neverRelease : Bool
  destroyOutOfDate : Bool
deriving DecidableEq, Repr

/-- An entry of `m_resources`. -/
structure PoolEntry (D : Type*) where
  key : D
  resource : ℕ
  stamp : ℕ
deriving DecidableEq, Repr

/-- `ResourcePool`, without its upstream. -/
structure ResourcePool (D : Type*) where
  resources : List (PoolEntry D)
  timestamp : ℕ
  frameBeforeOutOfData : ℕ
deriving DecidableEq, Repr

/-- What `getResource_impl` made for a descriptor. -/
structure Created (D R : Type*) where
  descriptor : D
  object : R
deriving DecidableEq, Repr

variable {D R : Type*}

namespace ResourcePool

def init (frameBeforeOutOfData : ℕ) : ResourcePool D := ⟨[], 0, frameBeforeOutOfData⟩

/-- `m_resources.find`: the position of an entry with the descriptor, of which `choice` takes one. -/
def find [BEq D] (pool : ResourcePool D) (descriptor : D) (choice : ℕ) :
    Option (Fin pool.resources.length) :=
  let found := (List.finRange pool.resources.length).filter fun i =>
    pool.resources[i].key == descriptor
  found[choice % found.length]?

def hand (kind : PoolKind) (pool : ResourcePool D) (i : Fin pool.resources.length) :
    ResourcePool D :=
  if kind.neverRelease then
    { pool with resources := pool.resources.set i { pool.resources[i] with stamp := pool.timestamp } }
  else { pool with resources := pool.resources.eraseIdx i }

def insert (pool : ResourcePool D) (descriptor : D) (resource : ℕ) : ResourcePool D :=
  { pool with resources := ⟨descriptor, resource, pool.timestamp⟩ :: pool.resources }

def outOfDate (pool : ResourcePool D) (entry : PoolEntry D) : Bool :=
  (entry.stamp + pool.frameBeforeOutOfData) % 2 ^ 64 < pool.timestamp

end ResourcePool

abbrev Chain (D : Type*) := List (ResourcePool D)

namespace Chain

/-- `getResource`: from the pool, else from its upstream, else a new one, for which
`getResource_impl` makes `object`. -/
def getResource [BEq D] (kind : PoolKind) (descriptor : D) (choice : ℕ) (object : R)
    (created : List (Created D R)) : Chain D → Option (Chain D × List (Created D R) × ℕ)
  | [] => none
  | pool :: upstream =>
    match pool.find descriptor choice with
    | some i => some (pool.hand kind i :: upstream, created, pool.resources[i].resource)
    | none =>
      match upstream with
      | [] =>
        let pool' := if kind.neverRelease then pool.insert descriptor created.length else pool
        some ([pool'], created ++ [⟨descriptor, object⟩], created.length)
      | _ :: _ =>
        (getResource kind descriptor choice object created upstream).map fun result =>
          (pool :: result.1, result.2)

def releaseResource (kind : PoolKind) (created : List (Created D R)) (destroyed : List ℕ)
    (resource : ℕ) : Chain D → Option (Chain D)
  | [] => none
  | pool :: upstream =>
    if kind.neverRelease then some (pool :: upstream)
    else if resource ∈ destroyed then none
    else created[resource]?.map fun own => pool.insert own.descriptor resource :: upstream

def newFrame (kind : PoolKind) : Chain D → Option (Chain D × List ℕ)
  | [] => none
  | pool :: upstream =>
    let pool := { pool with timestamp := (pool.timestamp + 1) % 2 ^ 64 }
    if kind.destroyOutOfDate then
      some ({ pool with resources := pool.resources.filter fun entry => ¬ pool.outOfDate entry }
          :: upstream,
        (pool.resources.filter pool.outOfDate).map (·.resource))
    else some (pool :: upstream, [])

def destroy (kind : PoolKind) (created : List (Created D R)) (destroyed : List ℕ) :
    Chain D → Option (Chain D × List ℕ)
  | [] => none
  | [pool] => some ([{ pool with resources := [] }], pool.resources.map (·.resource))
  | pool :: upstream =>
    ((pool.resources.map (·.resource)).foldlM
      (fun upstream resource => releaseResource kind created destroyed resource upstream)
      upstream).map fun upstream => ({ pool with resources := [] } :: upstream, [])

def pooled (chain : Chain D) : List ℕ := chain.flatMap fun pool => pool.resources.map (·.resource)

end Chain

structure Pools (D R : Type*) where
  chain : Chain D
  created : List (Created D R)
  destroyed : List ℕ
  handed : List ℕ
deriving DecidableEq, Repr

inductive PoolCall (D R : Type*)
  | getResource (at' : ℕ) (descriptor : D) (choice : ℕ) (object : R)
  | releaseResource (at' : ℕ) (resource : ℕ)
  | newFrame (at' : ℕ)
  | destroy (at' : ℕ)
deriving DecidableEq, Repr

namespace Pools

def init (frames : List ℕ) : Pools D R := ⟨frames.map ResourcePool.init, [], [], []⟩

def returned [BEq D] (kind : PoolKind) (pools : Pools D R) : PoolCall D R → Option ℕ
  | .getResource at' descriptor choice object =>
    (Chain.getResource kind descriptor choice object pools.created (pools.chain.drop at')).map
      (·.2.2)
  | _ => none

def step [BEq D] (kind : PoolKind) (pools : Pools D R) : PoolCall D R → Option (Pools D R)
  | .getResource at' descriptor choice object =>
    (Chain.getResource kind descriptor choice object pools.created (pools.chain.drop at')).map
      fun result =>
        { pools with
          chain := pools.chain.take at' ++ result.1
          created := result.2.1
          handed := result.2.2 :: pools.handed }
  | .releaseResource at' resource =>
    (Chain.releaseResource kind pools.created pools.destroyed resource
      (pools.chain.drop at')).map fun chain =>
        { pools with
          chain := pools.chain.take at' ++ chain
          handed := pools.handed.erase resource }
  | .newFrame at' =>
    (Chain.newFrame kind (pools.chain.drop at')).map fun result =>
      { pools with
        chain := pools.chain.take at' ++ result.1
        destroyed := pools.destroyed ++ result.2 }
  | .destroy at' =>
    (Chain.destroy kind pools.created pools.destroyed (pools.chain.drop at')).map fun result =>
      { pools with
        chain := pools.chain.take at' ++ result.1
        destroyed := pools.destroyed ++ result.2 }

end Pools

end PulseEngine.Graphics
