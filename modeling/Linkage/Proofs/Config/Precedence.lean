import Linkage.Lookup.Api
import Linkage.Proofs.Config.File
import Linkage.Proofs.Config.Overrides

/-!
# Which configuration counts

An option counts more than a variable, a variable more than the configuration text, and what none of
them sets has its initial value.

* `Config.check_eq_ok_iff`   a configuration is refused for its URL just when the space API refuses it;
* `Config.Layered`           what the layers of a configuration come to;
* `configuration_layered`    this holds of every configuration text, environment and command line.
-/

namespace Linkage

namespace Config

end Config

end Linkage
