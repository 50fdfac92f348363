import Paymaster.Main
import Paymaster.Proofs.CallStats.Window
import Paymaster.Proofs.Engine.Commuting
import Paymaster.Proofs.Engine.Limits
import Paymaster.Proofs.Engine.Serialized
import Paymaster.Proofs.Http.Metrics
import Paymaster.Proofs.Http.Provisioned
import Paymaster.Proofs.Ledger.Grants
import Paymaster.Proofs.Ledger.Refinement
import Paymaster.Proofs.Locks.Leases
import Paymaster.Proofs.Locks.Turns
import Paymaster.Proofs.Log
import Paymaster.Proofs.Rpc.Arguments
import Paymaster.Proofs.Rpc.Protocol
import Paymaster.Proofs.Rpc.WriteOnce
import Paymaster.Proofs.UserOperation.Defects
import Paymaster.Proofs.UserOperation.RoundTrip
