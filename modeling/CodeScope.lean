import CodeScope.Main
import CodeScope.Proofs.Bytes.Fields
import CodeScope.Proofs.Code.Indexing
import CodeScope.Proofs.CommandLine.Output
import CodeScope.Proofs.Handler.Written
import CodeScope.Proofs.Image.Written
import CodeScope.Proofs.Instruction.Segments
import CodeScope.Proofs.Listing.Caches
import CodeScope.Proofs.Listing.Counting
import CodeScope.Proofs.Listing.Layout
import CodeScope.Proofs.Marshal.Costs
import CodeScope.Proofs.Marshal.Decoding
import CodeScope.Proofs.Marshal.Faults
import CodeScope.Proofs.Marshal.Integers
import CodeScope.Proofs.Marshal.Levels
import CodeScope.Proofs.Marshal.Limit
import CodeScope.Proofs.Marshal.Progress
import CodeScope.Proofs.Marshal.References
import CodeScope.Proofs.Marshal.Texts
import CodeScope.Proofs.Marshal.Versions
import CodeScope.Proofs.Position.Indexed
import CodeScope.Proofs.Position.Signs
import CodeScope.Proofs.Position.Written
import CodeScope.Proofs.Text.Lines
import CodeScope.Proofs.Text.Quoted
import CodeScope.Proofs.Value.Equality
import CodeScope.Proofs.Value.Lines
import CodeScope.Value.Equality
