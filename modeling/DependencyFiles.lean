import DependencyFiles.Json.Printer
import DependencyFiles.Proofs.Order
import DependencyFiles.Proofs.RequestLog
import DependencyFiles.Provider.Override
import DependencyFiles.Proofs.Abreast
import DependencyFiles.Proofs.ProviderErrors
import DependencyFiles.Proofs.Warrants
import DependencyFiles.Proofs.Bounds
import DependencyFiles.Proofs.Positions
import DependencyFiles.Proofs.AskedOnce
import DependencyFiles.Proofs.Pinning
import DependencyFiles.Proofs.Superseded
import DependencyFiles.Proofs.Isolation
import DependencyFiles.Proofs.Retracing
import DependencyFiles.Proofs.DepthFirst
import DependencyFiles.Proofs.MergedTree
import DependencyFiles.Proofs.PlainSearch
import DependencyFiles.Proofs.Attribution
import DependencyFiles.Proofs.CallTails
import DependencyFiles.Proofs.Memories
import DependencyFiles.Proofs.RoundTrip
import DependencyFiles.Proofs.LockSections
import DependencyFiles.Proofs.RubyComments
import DependencyFiles.Proofs.LocalRequirements
import DependencyFiles.Proofs.RelativeForms
import DependencyFiles.Proofs.Listings
import DependencyFiles.Proofs.ArgumentLists
import DependencyFiles.Proofs.JoinedParts
