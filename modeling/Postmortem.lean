import Postmortem.Data.MergePatch
import Postmortem.Json.Printer
import Postmortem.Layout.File
import Postmortem.Memory.Fault
import Postmortem.Memory.Image
import Postmortem.Session.Command
import Postmortem.Session.Summary
import Postmortem.Proofs.HeapString.Capacity
import Postmortem.Proofs.HeapString.Marker
import Postmortem.Proofs.HeapString.Reads
import Postmortem.Proofs.Text.JsonItems
import Postmortem.Proofs.HeapString.Escaped
import Postmortem.Proofs.HeapString.Quoted
import Postmortem.Proofs.Loading
import Postmortem.Proofs.ScopeInfo.Regions
import Postmortem.Proofs.Memory.Arrays
import Postmortem.Proofs.Closure
import Postmortem.Proofs.HeapString.Course
import Postmortem.Proofs.HeapString.DepthGuard
import Postmortem.Proofs.HeapString.Slices
import Postmortem.Proofs.Accounting
import Postmortem.Proofs.Session.Effects
import Postmortem.Proofs.Session.Ledger
import Postmortem.Proofs.Checked.Basic
import Postmortem.Proofs.Checked.Words
import Postmortem.Proofs.Checked.Objects
import Postmortem.Proofs.Checked.Scopes
import Postmortem.Proofs.Checked.Images
import Postmortem.Proofs.Checked.Text
import Postmortem.Proofs.Checked.Strings
import Postmortem.Proofs.Checked.Session
import Postmortem.Proofs.HeapString.Work
import Postmortem.Proofs.Agreement.Decoding
import Postmortem.Proofs.Memory.ByteMap
import Postmortem.Proofs.Session.Limit
import Postmortem.Proofs.Memory.ArrayLoads
import Postmortem.Proofs.HeapString.Concatenation
import Postmortem.Proofs.SmallIntegers
import Postmortem.Proofs.HeapString.Clamping
import Postmortem.Proofs.HeapString.Chunks
import Postmortem.Proofs.HeapString.Unreadable
import Postmortem.Proofs.Memory.Splitting
import Postmortem.Proofs.Text.Appends
import Postmortem.Proofs.Text.Capacities
import Postmortem.Proofs.Text.AddedText
import Postmortem.Proofs.Contexts
import Postmortem.Proofs.HeapString.Stopping
import Postmortem.Proofs.Json.RoundTrip
import Postmortem.Proofs.Layout.RoundTrip
import Postmortem.Proofs.StoredIntegers
import Postmortem.Proofs.UnconfiguredTypes
