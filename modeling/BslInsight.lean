import BslInsight.Main
import BslInsight.Proofs.AssignedNames
import BslInsight.Proofs.BlockLayouts
import BslInsight.Proofs.BlockNesting
import BslInsight.Proofs.BrokenLines
import BslInsight.Proofs.CanonicalPaths
import BslInsight.Proofs.ChainReading
import BslInsight.Proofs.CommentBlocks
import BslInsight.Proofs.CommentPlaces
import BslInsight.Proofs.CompletionOrder
import BslInsight.Proofs.DeclaredParams
import BslInsight.Proofs.DefinitionPlaces
import BslInsight.Proofs.IndentedModules
import BslInsight.Proofs.ListEnds
import BslInsight.Proofs.NameUses
import BslInsight.Proofs.OpenCalls
import BslInsight.Proofs.OpenDocuments
import BslInsight.Proofs.PathPlaces
import BslInsight.Proofs.RebuiltTables
import BslInsight.Proofs.ReceiverTypes
import BslInsight.Proofs.RegionNesting
import BslInsight.Proofs.RenamedMembers
import BslInsight.Proofs.SourceEncodings
import BslInsight.Proofs.SymbolSearch
import BslInsight.Resolve.Json
