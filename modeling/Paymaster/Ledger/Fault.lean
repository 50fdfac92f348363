import Paymaster.Bytes.Utf8

/-!
# Failures of the store

What may go wrong when accounts or keys are looked up or saved.
-/

namespace Paymaster

/-- Why a call to the store gave no answer. -/
inductive StoreFault where
  /-- A save lost against another writer, or would have replaced a record it did not read. -/
  | stale (detail : Text)
  /-- The store did not answer in time. -/
  | timedOut
  | failed
  /-- No connection to the store. -/
  | unreachable
  | duplicate
  /-- A text of a key has lone surrogates. -/
  | unencodable (run : Unencodable)
  deriving DecidableEq, Repr

namespace StoreFault

/-- A save that found another version than the one it had read. -/
def changed (address : Text) (version : Int) : StoreFault :=
  .stale ("account " ++ address ++ " changed since version " ++ Digits.signedDecimal version)

/-- A first save of an address that has a record. -/
def taken (address : Text) : StoreFault :=
  .stale ("account " ++ address ++ " already exists")

/-- The wording for a store without a connection. -/
def unreachableMessage : Text := "db down"

end StoreFault

end Paymaster
