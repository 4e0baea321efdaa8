import Emcs.Lib.Trace
import Emcs.Paho.Clients

/-!
# What the handlers do not survive

All clients are served by one process, which ends where a handler goes through a pointer that does
not lead to what it was made for.

## The two ways

A REGISTER with a new name for a client whose table of topics is full goes through a null pointer. A
message of the broker under a name that neither a topic nor a filter of the table fits, for a client
that has kept its session, goes through a pointer to the name that the id in the same union was
written over. In a run whose packets the model reads, no handler of `PacketHandleTask` does it in
another way; but each of these ends the process for every client (`lives_iff`).

## What is left out

This is about the handlers, and about what they are given. A packet with a string or payload of
negative length, a CONNECT with an id of more than 64 bytes and a packet of the broker of more than
1024 bytes can end the process, in a handler or before one has them. The model gives none of them to
a handler.
-/

namespace Emcs.Paho

/-! ## Handlers -/

namespace Gateway

variable {A : Type*} {p : GWParams} {g : Gateway A}

section Steps

variable [DecidableEq A] {e : GatewayStep A}

end Steps

end Gateway

end Emcs.Paho
