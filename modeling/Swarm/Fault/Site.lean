import Swarm.Fault.Basic
import Swarm.Source.Position

/-!
# Execution sites

Where a runtime fault arose: the primitive, the procedure it belongs to, its position and the
agent that ran it. A site is recorded among the details of a fault and can be read back.

## Main definitions

* `Site`, `Site.text`
* `Site.bind`: record a site with a fault that has none
* `Site.ofFault?`: the site recorded with a runtime fault
-/

namespace Swarm

/-- Where a runtime fault arose. -/
structure Site where
  primitive : String
  procedure : String
  position : Position
  agent : String
  message : String
deriving Repr, DecidableEq

namespace Site

/-- The site recorded with a runtime fault. -/
def ofFault? (f : Fault) : Option Site :=
  if f.kind = .runtime then do
    let primitive ← f.lookup "primitive"
    let procedure ← f.lookup "procedure"
    let position ← f.lookup "position"
    let position ← (Position.ofText position).toOption
    let agent ← f.lookup "agent"
    return ⟨primitive, procedure, position, agent, f.message⟩
  else none

/-- Add the site to the trail of a fault. -/
def annotate (site : Site) (f : Fault) : Fault :=
  f.atOperation "dispatch::perform"
    |>.note "primitive" site.primitive
    |>.note "procedure" site.procedure
    |>.note "position" site.position.text
    |>.note "agent" site.agent

/-- Whether a fault still lacks a site: one about an agent, or a runtime fault that names no
primitive. -/
def isOpen (f : Fault) : Bool :=
  f.kind.isAgentValidation || f.kind = .runtime && (f.lookup "primitive").isNone

/-- Record the site with a fault. A fault about an agent becomes a runtime fault with the same
message that stems from it; a runtime fault that already names a primitive, and every other
fault, stays as it is. -/
def bind (site : Site) (f : Fault) : Fault :=
  if f.kind.isAgentValidation then
    site.annotate ((Fault.stated .runtime f.message).stemmingFrom f)
  else if f.kind = .runtime && (f.lookup "primitive").isNone then site.annotate f
  else f

/-- The text of a site. -/
def text (site : Site) : String :=
  site.message ++ "\nerror while " ++ site.agent ++ " running " ++ site.primitive
    ++ "\n  called by procedure " ++ site.procedure ++ " at " ++ site.position.text

end Site

end Swarm
