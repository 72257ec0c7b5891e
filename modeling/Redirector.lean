import Redirector.Files.Tree
import Redirector.Main
import Redirector.Proofs.Admin.Agreement
import Redirector.Proofs.Admin.Queue
import Redirector.Proofs.Admin.Steps
import Redirector.Proofs.Apply.Acceptance
import Redirector.Proofs.Apply.Again
import Redirector.Proofs.Apply.Atomic
import Redirector.Proofs.Apply.Interleaving
import Redirector.Proofs.Apply.Metrics
import Redirector.Proofs.Document.Stretches
import Redirector.Proofs.Document.Stripping
import Redirector.Proofs.Engine.File
import Redirector.Proofs.Engine.Update
import Redirector.Proofs.Files.Apart
import Redirector.Proofs.Forwarding
import Redirector.Proofs.Json.Cut
import Redirector.Proofs.Json.Layout
import Redirector.Proofs.Pattern.Meaning
import Redirector.Proofs.Pattern.Scan
import Redirector.Proofs.Profile.Document
import Redirector.Proofs.Profile.Edits
import Redirector.Proofs.Profile.Garbage
import Redirector.Proofs.Profile.History
import Redirector.Proofs.Profile.Mirror
import Redirector.Proofs.Profile.Reload
import Redirector.Proofs.Profile.Switches
import Redirector.Proofs.Profile.View
import Redirector.Proofs.Rule.Account
import Redirector.Proofs.Rule.Identifiers
import Redirector.Proofs.Rule.Wire
import Redirector.Proofs.Shutdown
import Redirector.Proofs.Store.Amid
import Redirector.Proofs.Watcher
import Redirector.Shutdown
