import OrderedEnv.Machine.Script
import OrderedEnv.Main
import OrderedEnv.Proofs.Declaration.RoundTrip
import OrderedEnv.Proofs.Evaluation.Replay
import OrderedEnv.Proofs.Evaluation.Secrecy
import OrderedEnv.Proofs.Evaluation.Tainting
import OrderedEnv.Proofs.Expansion.Scan
import OrderedEnv.Proofs.Request.Editing
import OrderedEnv.Proofs.Shell.Reading
import OrderedEnv.Proofs.FileSystem.Change
import OrderedEnv.Proofs.Quota
import OrderedEnv.Proofs.View
import OrderedEnv.Proofs.Limits.File
import OrderedEnv.Proofs.Store.Failing
import OrderedEnv.Proofs.Request.Failing
import OrderedEnv.Proofs.Store.Operation
import OrderedEnv.Proofs.Store.Concurrency
import OrderedEnv.Proofs.Store.Session
import OrderedEnv.Proofs.Request.Adding
import OrderedEnv.Proofs.Evaluation.Composition
import OrderedEnv.Proofs.Declaration.Rejection
import OrderedEnv.Proofs.Expansion.Concatenation
import OrderedEnv.Proofs.Expansion.FixedPoint
import OrderedEnv.Proofs.Shell.Verbatim
import OrderedEnv.Proofs.Shell.OwnCommands
import OrderedEnv.Proofs.Store.Growing
import OrderedEnv.Proofs.Evaluation.LastDeclaration
import OrderedEnv.Proofs.Store.Evaluating
import OrderedEnv.Proofs.View.Agreement
import OrderedEnv.Proofs.Evaluation.Rearranging
import OrderedEnv.Proofs.Quota.Exactness
import OrderedEnv.Proofs.Limits.Reloading
import OrderedEnv.Proofs.Expansion.Guarded
