import PaySystem.Foundations.Program
import PaySystem.Foundations.RelyGuarantee
import PaySystem.Foundations.Serial
import PaySystem.Foundations.WaitFor
import PaySystem.Foundations.History
import PaySystem.Foundations.Ledger
import PaySystem.Foundations.Table
import PaySystem.Foundations.FixedPoint
import PaySystem.Foundations.Text
import PaySystem.Foundations.Decimal
import PaySystem.Foundations.Slice
import PaySystem.Database.Models
import PaySystem.Database.Balance
import PaySystem.Database.Postgres
import PaySystem.Services.StatusChecker
import PaySystem.Services.PaymentService
import PaySystem.Services.ReturnService
import PaySystem.Services.Tasks
import PaySystem.Services.Endpoints
import PaySystem.Services.Details
import PaySystem.Ledger.Lifecycle
import PaySystem.Ledger.Change
import PaySystem.Ledger.Invariants
import PaySystem.Ledger.Abstraction
import PaySystem.Ledger.Books
import PaySystem.Interleaving.Interference
import PaySystem.Interleaving.Statements
import PaySystem.Interleaving.Programs
import PaySystem.Interleaving.Balances
import PaySystem.Interleaving.Provenance
import PaySystem.Interleaving.PaymentHistory
import PaySystem.Interleaving.Deadlock
import PaySystem.Sequential.Statements
import PaySystem.Sequential.Services
import PaySystem.Sequential.Calls
import PaySystem.Sequential.Refinement
import PaySystem.Sequential.Sessions
import PaySystem.Sequential.Atomicity
import PaySystem.Sequential.Checks
import PaySystem.Clients.Acquiring
import PaySystem.Clients.BankIds
import PaySystem.Clients.Contract
import PaySystem.Clients.PaidAt
import PaySystem.Auth.Tokens
import PaySystem.Auth.Revocation
import PaySystem.Auth.Issuance
import PaySystem.Auth.Destroy
import PaySystem.Auth.Stages
import PaySystem.Auth.Idempotence
import PaySystem.Pagination.Service
import PaySystem.Pagination.Traversal
import PaySystem.Pagination.Bounds
import PaySystem.Foundations.Protocol
import PaySystem.Foundations.Automaton
import PaySystem.Foundations.Progress
import PaySystem.Foundations.Atomic
import PaySystem.Interleaving.Effects
import PaySystem.Interleaving.Trails
import PaySystem.Interleaving.Deliveries
import PaySystem.Interleaving.Conversations
import PaySystem.Interleaving.Origins
import PaySystem.Interleaving.Greenlets
import PaySystem.Interleaving.Contracts
import PaySystem.Interleaving.Completion
import PaySystem.Auth.Concurrent
import PaySystem.Application.App
import PaySystem.Application.Runs
import PaySystem.Application.Authorization
import PaySystem.Application.Retries
import PaySystem.Application.Attendance
import PaySystem.Linearization.Courses
import PaySystem.Linearization.Server
import PaySystem.Linearization.Services
import PaySystem.Linearization.Refusals
