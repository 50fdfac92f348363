import Mathlib.Logic.Function.Basic
import Paymaster.Locks.Lease

/-!
# Lock servers

A lock server keeps leases by key (`Lease.Server`). Of a server no more is known than its laws
(`Lease.Server.Lawful`): an attempt gives the lease of a free key to a token for a time, a
release removes the lease that carries the token, errors come up before or after either is
done, and a lease stands until it runs out. So neither disturbs the leases of others
(`Lease.Server.Lawful.stands_acquire`, `Lease.Server.Lawful.stands_release`). A server that
keeps its leases in memory has these laws (`Lease.Server.inMemory_lawful`).
-/

namespace Paymaster.Lease

theorem key_inj {a b : Text} : key a = key b ↔ a.lower = b.lower :=
  List.append_right_inj _

/-! ## What clients see -/

/-- A lease at the lock server: the token that it carries, and when it runs out. -/
structure Stamp where
  token : Text
  expiry : Nat
  deriving DecidableEq, Repr

/-- A lock server as its clients see it. One answer to an attempt or to a release may leave it
in different states. -/
structure Server where
  State : Type
  now : State → Nat
  /-- The lease that stands under a key. -/
  stamp? : State → Text → Option Stamp
  /-- An attempt to take the lease of a key for a token and a time, and its answer. -/
  acquire : State → (key token : Text) → (lifetime : Nat) → Except Text Bool → State → Prop
  /-- The release of a lease that was given for a token, and its answer. -/
  release : State → (key token : Text) → Except Text Unit → State → Prop
  /-- Time passes. -/
  pass : State → State → Prop

namespace Server

variable {server : Server} {s s' : server.State} {key token : Text} {lifetime : Nat}

/-- The lease of a free key is given. -/
structure Given (server : Server) (s : server.State) (key token : Text) (lifetime : Nat)
    (s' : server.State) : Prop where
  free : server.stamp? s key = none
  stamps : server.stamp? s' =
    Function.update (server.stamp? s) key (some ⟨token, server.now s + lifetime⟩)

/-- The lease that carries a token is removed. -/
structure Removed (server : Server) (s : server.State) (key token : Text)
    (s' : server.State) : Prop where
  carried : ∃ expiry, server.stamp? s key = some ⟨token, expiry⟩
  stamps : server.stamp? s' = Function.update (server.stamp? s) key none

/-- What is relied on: a lease is given if none stands, and removed if it still carries the
token; an error leaves open whether that was done; a lease stands until it runs out. -/
structure Lawful (server : Server) : Prop where
  acquire : ∀ {s key token lifetime answer s'},
    server.acquire s key token lifetime answer s' → server.now s' = server.now s ∧
      match answer with
      | .ok true => server.Given s key token lifetime s'
      | .ok false => server.stamp? s' = server.stamp? s
      | .error _ => server.stamp? s' = server.stamp? s ∨ server.Given s key token lifetime s'
  release : ∀ {s key token answer s'},
    server.release s key token answer s' → server.now s' = server.now s ∧
      match answer with
      | .ok () => server.Removed s key token s'
      | .error _ => server.stamp? s' = server.stamp? s ∨ server.Removed s key token s'
  pass : ∀ {s s'}, server.pass s s' → server.now s ≤ server.now s' ∧
    ∀ key stamp, server.stamp? s key = some stamp → server.now s' < stamp.expiry →
      server.stamp? s' key = some stamp

/-- An attempt disturbs no lease that stands. -/
theorem Lawful.stands_acquire (lawful : server.Lawful) {answer : Except Text Bool}
    (acquired : server.acquire s key token lifetime answer s') {key' : Text} {stamp : Stamp}
    (stands : server.stamp? s key' = some stamp) : server.stamp? s' key' = some stamp := by
  have given (given : server.Given s key token lifetime s') :
      server.stamp? s' key' = some stamp := by
    have ne : key' ≠ key := by
      rintro rfl
      rw [given.free] at stands
      cases stands
    rw [given.stamps, Function.update_of_ne ne, stands]
  obtain ⟨-, told⟩ := lawful.acquire acquired
  rcases answer with detail | _ | _
  · exact told.elim (fun same => by rw [same, stands]) given
  · exact (congrFun told key').trans stands
  · exact given told

/-- A release disturbs no lease that carries another token. -/
theorem Lawful.stands_release (lawful : server.Lawful) {answer : Except Text Unit}
    (released : server.release s key token answer s') {key' : Text} {stamp : Stamp}
    (stands : server.stamp? s key' = some stamp) (other : stamp.token ≠ token) :
    server.stamp? s' key' = some stamp := by
  have removed (removed : server.Removed s key token s') :
      server.stamp? s' key' = some stamp := by
    obtain ⟨expiry, carried⟩ := removed.carried
    have ne : key' ≠ key := by
      rintro rfl
      rw [stands] at carried
      cases carried
      exact other rfl
    rw [removed.stamps, Function.update_of_ne ne, stands]
  obtain ⟨-, told⟩ := lawful.release released
  rcases answer with detail | _
  · exact told.elim (fun same => by rw [same, stands]) removed
  · exact removed told

end Server

/-! ## A server in memory -/

/-- The leases by key, those that ran out included. -/
structure Shelf where
  now : Nat := 0
  stamps : Text → Option Stamp := fun _ => none

namespace Shelf

def stamp? (s : Shelf) (key : Text) : Option Stamp :=
  (s.stamps key).filter fun stamp => s.now < stamp.expiry

def give (s : Shelf) (key token : Text) (lifetime : Nat) : Shelf :=
  { s with stamps := Function.update s.stamps key (some ⟨token, s.now + lifetime⟩) }

def remove (s : Shelf) (key : Text) : Shelf :=
  { s with stamps := Function.update s.stamps key none }

theorem stamp?_update (s : Shelf) (key : Text) (stamp : Option Stamp) :
    stamp? { s with stamps := Function.update s.stamps key stamp } =
      Function.update s.stamp? key (stamp.filter fun stamp => s.now < stamp.expiry) := by
  funext key'
  by_cases same : key' = key
  · subst same
    simp [stamp?]
  · simp [stamp?, same]

theorem stamp?_give {s : Shelf} {lifetime : Nat} (positive : 0 < lifetime)
    (key token : Text) : (s.give key token lifetime).stamp? =
      Function.update s.stamp? key (some ⟨token, s.now + lifetime⟩) := by
  have running : s.now < s.now + lifetime := Nat.lt_add_of_pos_right positive
  rw [give, stamp?_update, Option.filter_some, if_pos (decide_eq_true running)]

theorem stamp?_remove (s : Shelf) (key : Text) :
    (s.remove key).stamp? = Function.update s.stamp? key none :=
  s.stamp?_update key none

/-- A lease that runs no time is not given. -/
def Gives (s : Shelf) (key token : Text) (lifetime : Nat) (s' : Shelf) : Prop :=
  s.stamp? key = none ∧ 0 < lifetime ∧ s' = s.give key token lifetime

def Removes (s : Shelf) (key token : Text) (s' : Shelf) : Prop :=
  (∃ expiry, s.stamp? key = some ⟨token, expiry⟩) ∧ s' = s.remove key

end Shelf

/-- A lock server that keeps its leases in memory. Errors come up at any time. -/
def Server.inMemory : Server where
  State := Shelf
  now := Shelf.now
  stamp? := Shelf.stamp?
  acquire s key token lifetime answer s' := match answer with
    | .ok true => s.Gives key token lifetime s'
    | .ok false => s.stamp? key ≠ none ∧ s' = s
    | .error _ => s' = s ∨ s.Gives key token lifetime s'
  release s key token answer s' := match answer with
    | .ok () => s.Removes key token s'
    | .error _ => s' = s ∨ s.Removes key token s'
  pass s s' := ∃ duration, s' = { s with now := s.now + duration }

theorem Server.inMemory_lawful : Server.inMemory.Lawful where
  acquire {s key token lifetime answer s'} acquired := by
    have given (gives : s.Gives key token lifetime s') :
        s'.now = s.now ∧ Server.inMemory.Given s key token lifetime s' := by
      obtain ⟨free, positive, rfl⟩ := gives
      exact ⟨rfl, free, Shelf.stamp?_give positive key token⟩
    rcases answer with detail | _ | _
    · rcases acquired with rfl | gives
      · exact ⟨rfl, .inl rfl⟩
      · exact ⟨(given gives).1, .inr (given gives).2⟩
    · obtain ⟨-, rfl⟩ := acquired
      exact ⟨rfl, rfl⟩
    · exact given acquired
  release {s key token answer s'} released := by
    have removed (removes : s.Removes key token s') :
        s'.now = s.now ∧ Server.inMemory.Removed s key token s' := by
      obtain ⟨carried, rfl⟩ := removes
      exact ⟨rfl, carried, s.stamp?_remove key⟩
    rcases answer with detail | _
    · rcases released with rfl | removes
      · exact ⟨rfl, .inl rfl⟩
      · exact ⟨(removed removes).1, .inr (removed removes).2⟩
    · exact removed released
  pass {s s'} passed := by
    obtain ⟨duration, rfl⟩ := passed
    refine ⟨Nat.le_add_right _ _, fun key stamp stands running => ?_⟩
    obtain ⟨kept, -⟩ := Option.filter_eq_some_iff.mp stands
    exact Option.filter_eq_some_iff.mpr ⟨kept, decide_eq_true running⟩

end Paymaster.Lease
