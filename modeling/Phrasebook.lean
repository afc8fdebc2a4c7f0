import Phrasebook.Main
import Phrasebook.Session.Policy
import Phrasebook.Proofs.Session.Machine
import Phrasebook.Proofs.Session.Growth
import Phrasebook.Proofs.Session.Soundness
import Phrasebook.Proofs.Session.Closure
import Phrasebook.Proofs.Grammar.Recognition
import Phrasebook.Proofs.Grammar.Storage
import Phrasebook.Proofs.RuleSet.Extension
import Phrasebook.Proofs.Grammar.Charting
import Phrasebook.Proofs.Grammar.Selection
import Phrasebook.Proofs.Derivation.Discovery
import Phrasebook.Proofs.Session.Ceiling
import Phrasebook.Proofs.Session.Leaves
import Phrasebook.Proofs.Session.Limits
import Phrasebook.Proofs.Entity.Coordinates
import Phrasebook.Proofs.Grammar.Exclusion
import Phrasebook.Proofs.Grammar.Sharing
import Phrasebook.Proofs.Grammar.Grounding
import Phrasebook.Proofs.Grammar.Residue
import Phrasebook.Proofs.Grammar.Labelling
import Phrasebook.Proofs.Text.LetterCase
import Phrasebook.Proofs.Session.Firing
import Phrasebook.Proofs.Session.Feeding
import Phrasebook.Proofs.Grammar.Supplying
import Phrasebook.Proofs.Grammar.Naming
import Phrasebook.Proofs.Entity.Names
import Phrasebook.Proofs.Session.LeastChart
import Phrasebook.Proofs.Grammar.LabelOrder
import Phrasebook.Proofs.Text.Segmentation
import Phrasebook.Proofs.Text.TagSpelling
import Phrasebook.Proofs.RuleSet.ShardSelection
import Phrasebook.Proofs.CommandLine.Spellings
import Phrasebook.Proofs.Derivation.Unfolding
