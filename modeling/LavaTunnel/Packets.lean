import LavaTunnel.Tunnel

/-!
# `LavaTunnel.Packets` — the packets on the two sockets

What a packet is on the wire, in numbers: an id and a payload whose length depends on the id. `sentPackets`
are the packets the tunnel writes, those it makes up itself and those it passes on, each in the length its
code sends.
-/

namespace LavaTunnel

open Wire

/-- The payload lengths of the packets that the tunnel writes to a socket, the level data apart. -/
def sentPackets : Socket → List (UInt8 × Nat)
  | serverSock =>
      [(0x00, 130), (0x01, 0), (0x02, 0), (0x02, 4), (0x04, 6), (0x06, 7), (0x07, 73), (0x08, 9), (0x08, 15),
        (0x09, 6), (0x0a, 4), (0x0b, 3), (0x0c, 1), (0x0d, 65), (0x0e, 64), (0x0f, 1), (0x10, 66), (0x11, 68),
        (0x12, 2), (0x13, 1), (0x15, 133), (0x16, 195), (0x18, 2), (0x19, 7), (0x1A, 85), (0x1B, 1), (0x1C, 3),
        (0x1D, 65), (0x1E, 72), (0x1F, 1), (0x20, 7), (0x21, 137), (0x22, 14), (35, 79), (36, 1), (37, 87),
        (38, 1281), (39, 5), (40, 64), (41, 5), (43, 3), (44, 2)]
  | tunnelSock =>
      [(0x00, 130), (0x05, 8), (0x08, 9), (0x0d, 65), (0x10, 66), (0x11, 68), (0x12, 2), (0x13, 1), (0x14, 2),
        (0x15, 132), (0x16, 195), (0x18, 2), (0x19, 7), (0x1A, 85), (0x1B, 1), (0x1C, 3), (0x1D, 65),
        (0x1E, 68), (0x1F, 1), (0x21, 136), (0x22, 15), (43, 3)]

/-- A whole packet on a socket. A piece of level data has its length, its data, and a percentage. -/
def IsPacket (s : Socket) (bs : Bytes) : Prop :=
  ∃ id payload, bs = id :: payload ∧
    ((id, payload.length) ∈ sentPackets s ∨ s = serverSock ∧ id = 0x03 ∧ 3 ≤ payload.length)

/-- A packet of the table. -/
theorem isPacket_of_length {s : Socket} {id : UInt8} {payload : Bytes} {n : Nat} (h : payload.length = n)
    (hmem : (id, n) ∈ sentPackets s) : IsPacket s (id :: payload) :=
  ⟨id, payload, rfl, Or.inl (by rw [h]; exact hmem)⟩

end LavaTunnel
