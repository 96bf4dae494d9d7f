import LavaTunnel.Correctness.Handlers
import Mathlib.Data.Finset.Insert

/-!
# `LavaTunnel.Correctness.Threads` — packets of four threads on two sockets

No lock guards the sockets: a packet is written by several calls, and another thread may write between two of
them. Where no thread ever does, what is written to a socket is whole packets at every moment.
-/

namespace LavaTunnel

open Wire Wire.Prog

instance : Fintype ThreadId where
  elems := {ThreadId.main, ThreadId.tunnelServer, ThreadId.mcConnect, ThreadId.builder}
  complete := by
    intro i
    cases i <;> decide

/-- **Whole packets.** In a run in which no thread writes to a socket while another one is in the middle of a
    packet there, each stream is at every moment a prefix of whole packets, each of them from one thread. -/
theorem threads_write_packets (env : Env) (t : Tunnel) (sched : List (ThreadId × Option Bytes))
    (h : QuietRun (tunnel env) (start t) sched) (s : Socket) :
    PacketPrefix IsPacket s (((tunnel env).exec (start t) sched).stream s) := by
  have hbody : ∀ i l, ((tunnel env).body i l).Emits IsPacket := fun i l => (writes_round env i l).emits
  refine exec_packetPrefix hbody ⟨fun i => ?_, fun _ => rfl⟩ sched h s
  cases i with
  | main => exact ⟨_, rfl⟩
  | tunnelServer => exact ⟨_, rfl⟩
  | mcConnect => exact ⟨_, rfl⟩
  | builder => exact ⟨_, rfl⟩

/-- The client logs in, a ping of the server arrives, and the console writes the id of the message that answers
    'hide'. -/
def amidMessage : List (ThreadId × Option Bytes) :=
  [(.tunnelServer, none), (.tunnelServer, some [0]), (.tunnelServer, some [7]),
    (.tunnelServer, some (List.replicate 64 32)), (.tunnelServer, some (List.replicate 64 32)),
    (.tunnelServer, some [0]), (.tunnelServer, none)] ++
  List.replicate 9 (.mcConnect, none) ++ [(.mcConnect, some [0x01])] ++
  [(.main, none), (.main, some (ascii "'hide")), (.main, none), (.main, none)]

/-- A packet of the client comes and goes while the message is written, and the ping waits for its end. -/
def pingAfterMessage : List (ThreadId × Option Bytes) :=
  amidMessage ++ [(.tunnelServer, none), (.tunnelServer, some [0x12]), (.main, none), (.tunnelServer, some [0, 160]),
    (.tunnelServer, none), (.main, none), (.tunnelServer, none), (.mcConnect, none), (.tunnelServer, none)]

/-- All four threads but the builder write, between each other's calls. -/
theorem threads_write_packets_waiting :
    PacketPrefix IsPacket serverSock (((tunnel {}).exec (start {}) pingAfterMessage).stream serverSock) ∧
      PacketPrefix IsPacket tunnelSock (((tunnel {}).exec (start {}) pingAfterMessage).stream tunnelSock) := by
  have hquiet : QuietRun (tunnel {}) (start {}) pingAfterMessage := by decide +kernel
  exact ⟨threads_write_packets {} {} pingAfterMessage hquiet serverSock,
    threads_write_packets {} {} pingAfterMessage hquiet tunnelSock⟩

/-- The ping gets between the id and the rest of the message. -/
def pingIntoMessage : List (ThreadId × Option Bytes) := amidMessage ++ [(.mcConnect, none)]

theorem stream_pingIntoMessage : ((tunnel {}).exec (start {}) pingIntoMessage).stream serverSock =
    [(.main, 0x0d), (.mcConnect, 0x01)] := by
  decide +kernel

/-- **The ping lands in the message**: no packet starts like this. -/
theorem ping_lands_in_message :
    ¬ ∀ (env : Env) (t : Tunnel) (sched : List (ThreadId × Option Bytes)) (s : Socket),
      PacketPrefix IsPacket s (((tunnel env).exec (start t) sched).stream s) := by
  intro hall
  have h := hall {} {} pingIntoMessage serverSock
  rw [stream_pingIntoMessage] at h
  have hnil : ¬ IsPacket serverSock [] := by
    rintro ⟨id, payload, heq, -⟩
    exact absurd heq (by simp)
  have hone : ¬ IsPacket serverSock [0x0d] := by
    rintro ⟨id, payload, heq, hlen⟩
    obtain ⟨rfl, rfl⟩ := List.cons.inj heq
    rcases hlen with hlen | ⟨-, hid, -⟩
    · exact absurd hlen (by decide)
    · exact absurd hid (by decide)
  exact absurd (packetPrefix_second h hnil hone) (by decide)

end LavaTunnel
