import EntityForge.Files.FileTree
import EntityForge.Main
import EntityForge.Proofs.Schema.Inheritance
import EntityForge.Proofs.Model.Sessions
import EntityForge.Proofs.Model.Numbering
import EntityForge.Proofs.Model.Categories
import EntityForge.Proofs.Model.Lookups
import EntityForge.Proofs.Snapshot.Encoding
import EntityForge.Proofs.Files.Locations
import EntityForge.Proofs.Files.Trees
import EntityForge.Proofs.Files.Operations
import EntityForge.Proofs.Files.Programs
import EntityForge.Proofs.Output.Siblings
import EntityForge.Proofs.Output.Exchange
import EntityForge.Proofs.Output.Writing
import EntityForge.Proofs.Output.Commit
import EntityForge.Proofs.Generation.Targets
import EntityForge.Proofs.Generation.Outcomes
import EntityForge.Proofs.Loading.Shapes
import EntityForge.Proofs.Generation.Inputs
import EntityForge.Proofs.Loading.Orders
import EntityForge.Proofs.Solidity.Tokens
import EntityForge.Proofs.Solidity.Imports
import EntityForge.Proofs.Generation.Failures
import EntityForge.Proofs.Instances.Independence
import EntityForge.Proofs.Instances.Conformance
import EntityForge.Proofs.Ladder.Cumulative
import EntityForge.Proofs.Solidity.Ladders
import EntityForge.Proofs.Loading.Maps
import EntityForge.Proofs.Loading.Discriminators
import EntityForge.Proofs.Loading.Blame
import EntityForge.Proofs.Solidity.Constants
import EntityForge.Proofs.Solidity.FunctionNames
import EntityForge.Proofs.Solidity.Typing
import EntityForge.Proofs.Solidity.Getters
import EntityForge.Proofs.Solidity.Ordinals
import EntityForge.Proofs.Generation.Classes
import EntityForge.Proofs.Solidity.Creations
import EntityForge.Proofs.Solidity.Constructors
import EntityForge.Proofs.Output.Staging
import EntityForge.Proofs.Output.Lines
import EntityForge.Proofs.Solidity.Printed
import EntityForge.Proofs.Solidity.Quotes
import EntityForge.Proofs.Solidity.Strings
import EntityForge.Proofs.Value.Canonical
import EntityForge.Proofs.Solidity.StorageNames
import EntityForge.Proofs.Solidity.Initialisers
import EntityForge.Proofs.Solidity.ZeroValues
