import Paymaster.Proofs.Engine.Serving
import Paymaster.Proofs.Ledger.Commits
import Paymaster.Proofs.Program.Local

/-!
# Calls that commute

A call reads and writes the record of its key; a grant through a token also reads when the token
was granted through last (`Engine.local_serve`). A charge leaves the token and the date of its
record as they were, and a grant changes them only for the token that is reported and the one
that its record was linked to (`Engine.agrees_of_places`). So calls about different keys have
the same results in either order, and leave the same ledger, unless two grants have to do with
one token (`Engine.serve_commute`).
-/

namespace Paymaster.Engine

variable {world : World Unit} {t : AccountTable} {key : Text}

/-! ## What a call reads and writes -/

/-- The token that is reported for a key in a world. -/
def reported (engine : Engine) (world : World Unit) (key : Text) : Option Nat :=
  match (engine.tokenOf key).run.resultIn world with
  | .ok token? => token?
  | .error _ => none

/-- The tokens for whose holder a call may look: a grant for that of the token that is
reported. -/
def LooksFor (engine : Engine) (world : World Unit) (key : Text) : Call → Int → Prop
  | .requestGas _, n => ∃ token, engine.reported world key = some token ∧ n = token
  | .sponsor _, _ => False

/-- The rows that a call may write: what it found, granted with the token that is reported, or
charged. -/
inductive Places (engine : Engine) (world : World Unit) (t : AccountTable) (key : Text) :
    Call → Row → Prop
  | granted {address : Json} {found : Option Account} {allowance : Nat} {now : Instant}
      {version : Int} {row : Row} :
    t.findByAddress key = .ok found →
    Row.ofAccount? (granted found key allowance now (engine.reported world key)) version
      = some row →
    Places engine world t key (.requestGas address) row
  | charged {raw : Json} {found : Option Account} {cost : Nat} {a : Account} {version : Int}
      {row : Row} :
    t.findByAddress key = .ok found → charged? found cost = some a →
    Row.ofAccount? a version = some row →
    Places engine world t key (.sponsor raw) row

/-! ## The parts of a call -/

theorem offLedger_tokenOf (engine : Engine) (key : Text) :
    (engine.tokenOf key).run.OffLedger :=
  follows_tokenOf engine (fun _ _ => rfl) (fun _ _ _ => trivial) fun _ _ _ => trivial

theorem offLedger_authorize (engine : Engine) (op : UserOperation) :
    (engine.authorize op).run.OffLedger :=
  follows_authorize engine (fun _ _ ledger _ _ => ledger) (fun _ _ _ => trivial)
    fun _ _ _ _ => trivial

/-- Of the holder of a token only the time of its last grant has a part in the allowance. -/
theorem tokenAllowance_congr (tiers : Tiers) {a b : Option Account} (key : Text) (now : Instant)
    (same : a.map Account.lastRequest = b.map Account.lastRequest) :
    tokenAllowance tiers a key now = tokenAllowance tiers b key now := by
  cases a with
  | none =>
    cases b with
    | none => rfl
    | some b => cases same
  | some a =>
    cases b with
    | none => cases same
    | some b =>
      have last : a.lastRequest = b.lastRequest := Option.some.inj same
      simp only [tokenAllowance, refuseWithin, Account.rateLimited, last]

section Rules

variable {β : Type} {tokens : Int → Prop} {places : Row → Prop} (engine : Engine)

theorem local_findAccount_bind {f : Option Account → Action β} (isKey : key.IsKey)
    (rest : ∀ found, t.findByAddress key = .ok found →
      (f found).run.Local world t key tokens places) :
    (engine.findAccount key >>= f).run.Local world t key tokens places := by
  unfold findAccount
  cases engine.checkDeadline with
  | error fault => exact Program.local_done _
  | ok u =>
    refine Program.local_findAccount isKey.lower ?_
    cases (world.receive (.findAccount key) ()).1 with
    | failed fault => exact Program.local_done _
    | unheard => exact Program.local_done _
    | heard =>
      cases read : t.findByAddress key with
      | error fault => exact Program.local_done _
      | ok found => exact rest found read

theorem local_findHolder_bind {f : Option Account → Action β} {token : Int}
    (asked : tokens token)
    (alike : ∀ a b : Option Account, a.map Account.lastRequest = b.map Account.lastRequest →
      f a = f b)
    (rest : ∀ holder?, (f holder?).run.Local world t key tokens places) :
    (engine.findHolder token >>= f).run.Local world t key tokens places := by
  unfold findHolder
  cases engine.checkDeadline with
  | error fault => exact Program.local_done _
  | ok u =>
    refine Program.local_findHolder asked (fun a b same => ?_) fun answer => ?_
    · exact congrArg ExceptT.run (alike a b same)
    · cases answer with
      | error fault => exact Program.local_done _
      | ok holder? => exact rest holder?

/-- The end of every call inside its lock: one save. -/
theorem local_lastSave {a : Account} (own : a.address = key)
    (made : ∀ row version, Row.ofAccount? a version = some row → places row) :
    (do let _ ← engine.saveAccount a : Action Unit).run.Local world t key tokens places := by
  unfold saveAccount
  cases engine.checkDeadline with
  | error fault => exact Program.local_done _
  | ok u =>
    refine Program.local_saveAccount own (fun row => made row _) fun answer => ?_
    cases answer with
    | error fault => trivial
    | ok b => trivial

end Rules

/-! ## Every call -/

theorem local_grant (engine : Engine) (isKey : key.IsKey) (address : Json) :
    (engine.grant key).run.Local world t key (LooksFor engine world key (.requestGas address))
      (Places engine world t key (.requestGas address)) := by
  unfold grant
  refine local_findAccount_bind engine isKey fun found read => ?_
  refine Action.local_bind (engine.offLedger_tokenOf key) fun token? told => ?_
  refine Action.local_bind ⟨rfl, fun _ => trivial⟩ fun now _ => ?_
  have reports : engine.reported world key = token? := by
    rw [reported, told]
  have own (allowance : Nat) : (granted found key allowance now token?).address = key := by
    cases found with
    | none => rfl
    | some old =>
      have own : old.address = key := AccountTable.address_of_findByAddress isKey read
      exact own
  have save (allowance : Nat) : (do
      let _ ← engine.saveAccount (granted found key allowance now token?) : Action Unit).run.Local
      world t key (LooksFor engine world key (.requestGas address))
      (Places engine world t key (.requestGas address)) := by
    refine local_lastSave engine (own allowance) fun row version made => ?_
    rw [← reports] at made
    exact .granted read made
  cases token? with
  | none => exact Action.local_ofExcept_bind fun allowance _ => save allowance
  | some token =>
    have throughToken : (do
        let holder? ← engine.findHolder token
        let allowance ← Action.ofExcept (tokenAllowance engine.tiers holder? key now)
        let _ ← engine.saveAccount (granted found key allowance now (some token))
          : Action Unit).run.Local world t key (LooksFor engine world key (.requestGas address))
        (Places engine world t key (.requestGas address)) := by
      refine local_findHolder_bind engine ⟨token, reports, rfl⟩ (fun a b same => ?_) fun _ => ?_
      · rw [tokenAllowance_congr engine.tiers key now same]
      · exact Action.local_ofExcept_bind fun allowance _ => save allowance
    cases found with
    | none => exact throughToken
    | some account => exact Action.local_ofExcept_bind fun _ _ => throughToken

theorem local_charge (engine : Engine) (isKey : key.IsKey) (raw : Json) (cost : Nat) :
    (engine.charge key cost).run.Local world t key (LooksFor engine world key (.sponsor raw))
      (Places engine world t key (.sponsor raw)) := by
  unfold charge
  refine local_findAccount_bind engine isKey fun found read => ?_
  cases charged : charged? found cost with
  | none => exact Program.local_done _
  | some a =>
    obtain ⟨old, rfl, -, -, rfl⟩ := charged?_eq_some charged
    have own : old.address = key := AccountTable.address_of_findByAddress isKey read
    exact local_lastSave engine own fun row version made => .charged read charged made

/-- A call reads and writes the record of its key, and a grant reads the last grant through the
token that is reported. -/
theorem local_serve (engine : Engine) {call : Call} (keyed : call.key? = some key) :
    (engine.serve call).run.Local world t key (LooksFor engine world key call)
      (Places engine world t key call) := by
  have isKey := isKey_of_key? keyed
  refine Action.local_bind ⟨rfl, fun _ => trivial⟩ fun source _ => ?_
  cases call with
  | requestGas address =>
    refine Action.local_bind_off ?_ fun _ => trivial
    refine Action.local_ofExcept_bind fun key' given => ?_
    rw [Call.key?, given] at keyed
    cases keyed
    exact Action.local_hold source key (local_grant _ isKey address)
  | sponsor raw =>
    refine Action.local_bind_off ?_ fun _ => trivial
    refine Action.local_ofExcept_bind fun op given => ?_
    rw [Call.key?, UserOperation.eq_ok_of_mapError given] at keyed
    cases keyed
    refine Action.local_bind_off ?_ fun _ => offLedger_authorize _ op
    exact Action.local_hold source _ (local_charge _ isKey raw _)

/-! ## Commuting -/

/-- No token that is reported for a key is reported for another key as well, or linked to the
account of that one. -/
def TokensApart (world : World Unit) (t : AccountTable) (engine : Engine) (key : Text)
    (engine' : Engine) (key' : Text) : Prop :=
  ∀ token, engine.reported world key = some token →
    engine'.reported world key' ≠ some token ∧
      ∀ a, t.account? key' = some a → a.vipToken ≠ token

/-- What a call writes is no matter to a call about another key, unless both are grants that
have to do with one token. -/
theorem agrees_of_places {engine engine' : Engine} {key' : Text} {call call' : Call} {row : Row}
    (sound : t.Sound) (isKey : key.IsKey) (ne : key ≠ key') (own : row.address = key)
    (places : Places engine world t key call row)
    (apart : ∀ a b, call = .requestGas a → call' = .requestGas b →
      TokensApart world t engine' key' engine key) :
    t.Agrees key' (LooksFor engine' world key' call') (t.place row) := by
  subst own
  refine ⟨AccountTable.row?_place_of_ne (Ne.symm ne), fun n looks => ?_⟩
  cases call' with
  | sponsor raw => exact looks.elim
  | requestGas address =>
    cases places with
    | charged read charged made =>
      obtain ⟨old, rfl, -, -, rfl⟩ := charged?_eq_some charged
      exact AccountTable.lastGrant_place_of_kept sound isKey made read rfl rfl n
    | granted read made =>
      obtain ⟨token, told, rfl⟩ := looks
      obtain ⟨unreported, unlinked⟩ := apart _ _ rfl rfl token told
      refine AccountTable.lastGrant_place_of_other sound isKey made read ?_ fun b same => ?_
      · cases told' : engine.reported world row.address with
        | none => exact fun same => by cases same
        | some token' =>
          intro same
          rw [told'] at unreported
          exact unreported (congrArg some (Int.ofNat.inj same))
      · exact unlinked b (by rw [AccountTable.account?_of_findByAddress isKey read, same])

/-- Calls about different keys commute, whatever tokens are involved, but for two grants that have
to do with one token: with that of a charge no grant has to do. -/
theorem serve_commute {engine engine' : Engine} {x y : Call} {key' : Text} (sound : t.Sound)
    (keyed : x.key? = some key) (keyed' : y.key? = some key') (ne : key ≠ key')
    (apart : ∀ a b, x = .requestGas a → y = .requestGas b →
      TokensApart world t engine key engine' key' ∧ TokensApart world t engine' key' engine key) :
    Program.Commute world t (engine.serve x).run (engine'.serve y).run := by
  refine (local_serve engine keyed).commute (local_serve engine' keyed') ne ?_ ?_
  · intro row own places
    exact agrees_of_places sound (isKey_of_key? keyed) ne own places
      fun a b first second => (apart a b first second).2
  · intro row own places
    exact agrees_of_places sound (isKey_of_key? keyed') (Ne.symm ne) own places
      fun a b first second => (apart b a second first).1

/-- The address after the zero address. -/
def neighbour : Address :=
  ⟨Bytes.zeros 19 ++ [1], by decide⟩

/-- A node that reports the last byte of an owner as his token, at the start of 1970. -/
def ownBytes : World Unit :=
  World.still 0 fun data => .ok (Bytes.word (data.getD 35 0).toNat)

/-- Grants to two addresses through tokens of their own. -/
theorem serve_commute_two_owners :
    (small (some .zero)).reported ownBytes (Address.zero.key true) = some 0 ∧
    (small (some .zero)).reported ownBytes (neighbour.key true) = some 1 ∧
    Program.Commute ownBytes []
      ((small (some .zero)).serve (.requestGas (.text (Address.zero.key true)))).run
      ((small (some .zero)).serve (.requestGas (.text (neighbour.key true)))).run := by
  have first : (small (some .zero)).reported ownBytes (Address.zero.key true) = some 0 := by
    decide +kernel
  have other : (small (some .zero)).reported ownBytes (neighbour.key true) = some 1 := by
    decide +kernel
  have keyed : Call.key? (.requestGas (.text (Address.zero.key true)))
      = some (Address.zero.key true) := by decide +kernel
  have keyed' : Call.key? (.requestGas (.text (neighbour.key true)))
      = some (neighbour.key true) := by decide +kernel
  refine ⟨first, other, serve_commute AccountTable.sound_nil keyed keyed' (by decide +kernel)
    fun a b _ _ => ⟨fun token told => ⟨?_, nofun⟩, fun token told => ⟨?_, nofun⟩⟩⟩
  · rw [first] at told
    rw [other]
    cases told
    exact nofun
  · rw [other] at told
    rw [first]
    cases told
    exact nofun

end Paymaster.Engine
