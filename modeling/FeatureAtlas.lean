import FeatureAtlas.Main
import FeatureAtlas.Proofs.Placement
import FeatureAtlas.Proofs.Addition
import FeatureAtlas.Proofs.Contents
import FeatureAtlas.Proofs.Sound
import FeatureAtlas.Proofs.Expansion
import FeatureAtlas.Proofs.Filtering
import FeatureAtlas.Proofs.Runs
import FeatureAtlas.Proofs.TagLinks
import FeatureAtlas.Proofs.TagNames
import FeatureAtlas.Proofs.Transcript
import FeatureAtlas.Proofs.Exclusion
import FeatureAtlas.Proofs.Failure
import FeatureAtlas.Proofs.Remains
import FeatureAtlas.Proofs.Ownership
import FeatureAtlas.Proofs.Mentions
import FeatureAtlas.Proofs.Bearers
import FeatureAtlas.Proofs.Permanence
import FeatureAtlas.Proofs.TagHistory
import FeatureAtlas.Proofs.Renumbering
import FeatureAtlas.Proofs.Reordering
import FeatureAtlas.Proofs.Following
import FeatureAtlas.Proofs.Searching
import FeatureAtlas.Proofs.TagLookup
import FeatureAtlas.Proofs.Loops
import FeatureAtlas.Proofs.Batches
import FeatureAtlas.Proofs.Spellings
import FeatureAtlas.Proofs.Finding
import FeatureAtlas.Proofs.Loading
import FeatureAtlas.Proofs.Endings
import FeatureAtlas.Proofs.Navigation
import FeatureAtlas.Proofs.Shapes
import FeatureAtlas.Proofs.Cutting
import FeatureAtlas.Proofs.Replacing
import FeatureAtlas.Proofs.Precedence
import FeatureAtlas.Proofs.Filling
import FeatureAtlas.Proofs.RowMaps
import FeatureAtlas.Proofs.CommentBlocks
import FeatureAtlas.Proofs.TableRows
import FeatureAtlas.Proofs.LineEndings
import FeatureAtlas.Proofs.TagIdentity
import FeatureAtlas.Proofs.GivenPaths
import FeatureAtlas.Proofs.Flattening
import FeatureAtlas.Proofs.Unmatched
import FeatureAtlas.Proofs.Overrides
import FeatureAtlas.Proofs.FeatureFiles
import FeatureAtlas.Proofs.Positions
import FeatureAtlas.Proofs.SiblingNames
