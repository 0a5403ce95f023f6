import GuestPy.Library.Host
import GuestPy.Library.Program
import GuestPy.Library.Runs
import GuestPy.Errors
import GuestPy.Policy
import GuestPy.Guest.Activity
import GuestPy.Guest.Balance
import GuestPy.Guest.Arming
import GuestPy.Imports.Name
import GuestPy.Imports.World
import GuestPy.Imports.Importlib
import GuestPy.Imports.Realise
import GuestPy.Imports.Dispatch
import GuestPy.Imports.Ledger
import GuestPy.Imports.History
import GuestPy.Imports.Keeping
import GuestPy.Imports.Denied
import GuestPy.Imports.Isolation
import GuestPy.Imports.Borrowing
import GuestPy.Imports.Failing
import GuestPy.Imports.Mounting
import GuestPy.Imports.Reaching
import GuestPy.Host.Class
import GuestPy.Host.Calls
import GuestPy.Host.Requests
import GuestPy.Exceptions.Classes
import GuestPy.Exceptions.Specs
import GuestPy.Exceptions.Realising
import GuestPy.Exceptions.Matching
import GuestPy.Iteration.Steps
import GuestPy.Iteration.Streams
import GuestPy.Boundary.World
import GuestPy.Boundary.Raising
import GuestPy.Boundary.Operations
import GuestPy.Boundary.History
import GuestPy.Boundary.Keeping
import GuestPy.Boundary.Polling
import GuestPy.Boundary.Closing
import GuestPy.Boundary.Interruption
import GuestPy.Boundary.FatalErrors
import GuestPy.Boundary.TypedErrors
import GuestPy.Driver.Timer
import GuestPy.Driver.World
import GuestPy.Driver.HostFutures
import GuestPy.Driver.Runtime
import GuestPy.Driver.Operations
import GuestPy.Driver.History
import GuestPy.Driver.Keeping
import GuestPy.Driver.Polling
import GuestPy.Driver.Driving
import GuestPy.Driver.Publishing
import GuestPy.Driver.Scheduler
import GuestPy.Driver.Conservation
import GuestPy.Driver.Wakeups
import GuestPy.Driver.Suspension
import GuestPy.Driver.Deadlines
import GuestPy.Driver.Panics
import GuestPy.Driver.Waiting
import GuestPy.Library.Answers
import GuestPy.Driver.Closing
import GuestPy.Library.Results
import GuestPy.Marshal.Objects
import GuestPy.Marshal.Serde
import GuestPy.Marshal.Visitors
import GuestPy.Marshal.RoundTrip
import GuestPy.Marshal.Arity
import GuestPy.Marshal.Args
import GuestPy.Marshal.Binding
import GuestPy.Library.Search
import GuestPy.Marshal.Native
import GuestPy.Marshal.Fitting
import GuestPy.Marshal.Unions
import GuestPy.Library.Writes
import GuestPy.Bundles.Builder
import GuestPy.Bundles.Consistency
import GuestPy.Bundles.Entries
import GuestPy.Bundles.Trees
import GuestPy.Bundles.Agreement
import GuestPy.Imports.Relative
import GuestPy.Marshal.Returning
import GuestPy.Exceptions.Requests
import GuestPy.Exceptions.Chains
import GuestPy.Exceptions.Typed
import GuestPy.Host.Registration
import GuestPy.Imports.Owners
import GuestPy.Guest.Building
import GuestPy.Marshal.Accounting
import GuestPy.Imports.Extensions
import GuestPy.Guest.Exceptional
import GuestPy.Library.Least
import GuestPy.Host.Metaclasses
import GuestPy.Library.Paths
import GuestPy.Library.Disk
import GuestPy.Artifacts.Names
import GuestPy.Artifacts.Materialized
import GuestPy.Artifacts.Tree
import GuestPy.Artifacts.Selection
import GuestPy.Artifacts.Backends
import GuestPy.Host.Attributes
import GuestPy.Library.Borrows
import GuestPy.Macros.Callable
import GuestPy.Macros.HostClass
import GuestPy.Payloads.Agreement
import GuestPy.Engines.Entry
import GuestPy.Engines.Interrupts
import GuestPy.Engines.Releases
import GuestPy.Host.State
import GuestPy.Macros.Contexts
import GuestPy.Artifacts.Store
import GuestPy.Iteration.Hosted
import GuestPy.Macros.Embedded
