import Scaffold.CommandLine.Arguments
import Scaffold.CommandLine.Execution
import Scaffold.FileSystem.Tree
import Scaffold.Generation.Basic
import Scaffold.Log
import Scaffold.Main
import Scaffold.Proofs.Field.Grammar
import Scaffold.Proofs.Generation.DryRun
import Scaffold.Proofs.Generation.History
import Scaffold.Proofs.Generation.Interruption
import Scaffold.Proofs.Generation.Rerun
import Scaffold.Proofs.Route.History
import Scaffold.Storage.Denying
import Scaffold.Storage.Memory
import Scaffold.Proofs.Plan.Tables
import Scaffold.Proofs.Plan.References
import Scaffold.Proofs.Generation.Accounting
import Scaffold.Proofs.Generation.Survival
import Scaffold.Proofs.Generation.Overwriting
import Scaffold.Proofs.Generation.Registration
import Scaffold.Proofs.Storage.Logging
import Scaffold.Proofs.Path.Inside
import Scaffold.Proofs.Generation.Containment
import Scaffold.Proofs.Storage.Renaming
import Scaffold.Proofs.Plan.Restamping
import Scaffold.Proofs.Generation.Moves
import Scaffold.Proofs.Generation.Clock
import Scaffold.Proofs.Description.Matching
import Scaffold.Proofs.Description.Joining
import Scaffold.Proofs.Generation.Cycles
import Scaffold.Proofs.Generation.Faithful
import Scaffold.Proofs.Relation.Grammar
import Scaffold.Proofs.Name.Inflection
import Scaffold.Proofs.Name.Conventions
import Scaffold.Proofs.Text.Recasing
import Scaffold.Proofs.Text.Studly
import Scaffold.Proofs.Name.Exchange
import Scaffold.Proofs.Name.LastWord
import Scaffold.Proofs.Name.Canonical
import Scaffold.Proofs.Name.Settling
import Scaffold.Proofs.Name.Reversal
import Scaffold.Proofs.Text.Underscored
import Scaffold.Proofs.Name.TableWords
import Scaffold.Proofs.Plan.Blocking
import Scaffold.Proofs.Plan.Tasks
import Scaffold.Proofs.Route.Pieces
import Scaffold.Proofs.Registry.Saving
import Scaffold.Proofs.Registry.Distinct
import Scaffold.Proofs.Relation.Nameless
import Scaffold.Proofs.Plan.Columns
import Scaffold.Proofs.Plan.Accessors
import Scaffold.Proofs.Template.Literals
import Scaffold.Proofs.Template.Constraints
