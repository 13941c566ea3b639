import Respell.Proofs.CommandAgreement
import Respell.Proofs.Reparsing
import Respell.Proofs.StrictRendering

/-!
Denied diagnostics as a gate. When diagnostics are denied, a run on a package ends well exactly if
nothing of the package is lost on the way: at discovery, when files are read, when members are listed
and read by themselves, and when functions are rendered. The output then holds the text of every
function that is admitted.
-/

set_option autoImplicit false

namespace Respell

open Syntax (FunctionDef Member)

/-! ### Clean records -/

/-- A discovered module of which nothing is lost: it is text, its members can be listed, and each
function among them that its policy admits can be read by itself. -/
def Host.ReadsInFull (host : Host) (reader : Reader) (module : DiscoveredModule) : Prop :=
  ∃ source members, host.readText module.path = .ok source ∧
    reader.members source = .ok members ∧
      ∀ member ∈ members, (Policy.forModule module.name).admits member = true →
        ∀ text, member.kind = .callable text →
          ∃ definition, reader.readFunction text = .ok definition

theorem Host.ReadsInFull.lists {host : Host} {reader : Reader} {module : DiscoveredModule}
    (full : host.ReadsInFull reader module) : host.lists reader module = true := by
  obtain ⟨source, members, read, listed, -⟩ := full
  unfold Host.lists
  rw [read]
  dsimp only
  rw [listed]
  rfl

end Respell
