import SheetLint.Project.Load
import SheetLint.Session
import SheetLint.Store.Plain
import SheetLint.Proofs.Inspections
import SheetLint.Proofs.Lines
import SheetLint.Proofs.Preorder
import SheetLint.Proofs.Tours
import SheetLint.Proofs.Parents
import SheetLint.Proofs.Attaching
import SheetLint.Proofs.StrictWalks
import SheetLint.Proofs.Containers
import SheetLint.Proofs.Locations
import SheetLint.Proofs.Rewalks
import SheetLint.Proofs.Backfills
import SheetLint.Proofs.Shares
import SheetLint.Proofs.Undisturbed
import SheetLint.Proofs.Histories
import SheetLint.Proofs.Visitation
import SheetLint.Proofs.Ways
import SheetLint.Proofs.Copies
import SheetLint.Proofs.Layering
import SheetLint.Proofs.Loading
import SheetLint.Proofs.Nearest
import SheetLint.Proofs.Origins
import SheetLint.Proofs.Failing
import SheetLint.Proofs.Sifted
import SheetLint.Proofs.Flattening
import SheetLint.Proofs.Merging
import SheetLint.Proofs.Redundant
