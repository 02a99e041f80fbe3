import Mathlib.Data.List.Forall2
import NetClass.Socket.ReturnCode
import NetClass.Socket.Transfer

/-!
Contract: what `readData` makes of the datagrams that arrive at a UDP socket.

Owns: the datagrams that the receives of a call take, and the proof that the call stores
them behind each other as if they were a stream, up to the one that does not fit any more.

A `recvfrom` hands over as much of a datagram as there is room for. The rest is lost.
-/

set_option autoImplicit false

namespace NetClass.Socket

/-- A receive that succeeds, with the length that it was given. -/
def Call.receives : Call → Option (Int × TransferAnswer)
  | .transfer _ _ _ length answer => if 0 ≤ answer.ret then some (length, answer) else none
  | _ => none

/-- The kernel cuts off what does not fit. -/
structure Cuts (receive : Int × TransferAnswer) (datagram : List UInt8) : Prop where
  size : receive.2.ret = (min datagram.length receive.1.toNat : Nat)
  bytes : receive.2.bytes = datagram.take receive.1.toNat

/-- The receives of a log take these datagrams. -/
def Takes (calls : List Call) (datagrams : List (List UInt8)) : Prop :=
  List.Forall₂ Cuts (calls.filterMap Call.receives) datagrams

/-! ### Logs -/

/-- A transfer call is given a length that is not 0. -/
def Call.Asks : Call → Prop
  | .transfer _ _ _ length _ => 0 < length
  | _ => True

theorem Call.asks_of_not_isTransfer {call : Call} (plain : call.isTransfer = false) :
    call.Asks := by
  cases call with
  | transfer => cases plain
  | _ => trivial

/-- What a log has received is the beginning of the datagrams, and only the last of them can
have been cut. -/
structure Fills (room : Int) (calls : List Call) (datagrams : List (List UInt8)) : Prop where
  total : moved calls = min datagrams.flatten.length room.toNat
  bytes : received calls = datagrams.flatten.take room.toNat
  fits : ∀ earlier last, datagrams = earlier ++ [last] → (earlier.flatten.length : Int) < room

/-- `j` bytes have been moved before the log begins. -/
theorem fills_of_takes {bufLen : Int} {calls : List Call} :
    ∀ {j : Nat} {datagrams : List (List UInt8)}, Windowed .read bufLen j calls →
      Honest calls → (∀ call ∈ calls, call.Asks) → Takes calls datagrams →
      Fills (bufLen - j) calls datagrams := by
  induction calls with
  | nil =>
      intro j datagrams _ _ _ takes
      obtain rfl : datagrams = [] := by simpa [Takes] using takes
      exact ⟨by simp, by simp [received], by simp⟩
  | cons call rest inductionHypothesis =>
      intro j datagrams windowed honest asks takes
      obtain ⟨here, later⟩ := windowed
      obtain ⟨honestHere, honestLater⟩ := (honest_cons call rest).mp honest
      obtain ⟨asksHere, asksLater⟩ := List.forall_mem_cons.mp asks
      have split : received (call :: rest) = call.received ++ received rest := by simp [received]
      -- A call that takes no datagram moves nothing.
      have silent : call.receives = none → call.moved = 0 → call.received = [] →
          Fills (bufLen - j) (call :: rest) datagrams := by
        intro nothing still empty
        rw [still, Nat.add_zero] at later
        rw [Takes, List.filterMap_cons_none nothing] at takes
        obtain ⟨total, bytes, fits⟩ := inductionHypothesis later honestLater asksLater takes
        constructor
        · rw [moved_cons, still, Nat.zero_add, total]
        · rw [split, empty, List.nil_append, bytes]
        · exact fits
      cases call with
      | transfer name fd offset length answer =>
          obtain ⟨reads, -, window⟩ := here
          obtain ⟨-, -, reported⟩ := honestHere
          have some : 0 < length := asksHere
          by_cases succeeds : 0 ≤ answer.ret
          · have takesOne : (Call.transfer name fd offset length answer).receives =
                .some (length, answer) := if_pos succeeds
            rw [Takes, List.filterMap_cons_some takesOne] at takes
            cases takes with
            | @cons _ datagram _ others cuts takes =>
                have size : answer.ret.toNat = min datagram.length length.toNat := by
                  have cut := cuts.size
                  simp only at cut
                  omega
                obtain ⟨total, bytes, fits⟩ :=
                  inductionHypothesis later honestLater asksLater takes
                simp only [Call.moved_transfer, size, Nat.cast_add] at total bytes fits
                have left : (bufLen - (j + (min datagram.length length.toNat : Nat))).toNat =
                    (bufLen - j).toNat - datagram.length := by omega
                have room : length.toNat = (bufLen - j).toNat := by rw [window]
                have head : (Call.transfer name fd offset length answer).received =
                    datagram.take (bufLen - j).toNat := by
                  simp only [Call.received, reads]
                  rw [← room]
                  exact cuts.bytes
                refine ⟨?_, ?_, ?_⟩
                · rw [moved_cons, Call.moved_transfer, size, total, left, room,
                    List.flatten_cons, List.length_append]
                  omega
                · rw [split, head, bytes, left, List.flatten_cons, List.take_append]
                · intro earlier last same
                  cases earlier with
                  | nil =>
                      simp only [List.flatten_nil, List.length_nil]
                      omega
                  | cons first earlier =>
                      obtain ⟨rfl, rest⟩ := List.cons.inj same
                      have before := fits earlier last rest
                      rw [List.flatten_cons, List.length_append]
                      omega
          · refine silent (if_neg succeeds) ?_ ?_
            · rw [Call.moved_transfer]
              omega
            · simp only [Call.received, reads]
              apply List.eq_nil_of_length_eq_zero
              rw [reported reads]
              omega
      | _ => exact silent rfl rfl rfl

/-! ### Whole calls -/

theorem Call.ofCalls_asks (direction : Direction) (sock : NcSocket) :
    OfCalls direction sock Call.Asks where
  waits := fun _ isWait => Call.asks_of_not_isTransfer (Call.isTransfer_of_isWait isWait)
  transfers := fun _ _ _ remains => remains
  shuts := trivial

theorem Build.forward_read (build : Build) (answer : Answer) :
    (build.policy .read).Forward answer := by
  cases build with
  | poll => exact Poll.forward .read answer
  | select => exact Select.forward_read answer

/-- A `readData` of either build that is told to count stores the datagrams that it takes
behind each other, as many of their bytes as the buffer has room for, counts these, and
reports success exactly if they fill the buffer. All datagrams but the last one are stored
whole. -/
theorem readData_datagrams (build : Build) (sock : NcSocket) (mem : Int → UInt8) (bufLen : Int)
    (positive : 0 < bufLen) (answers : List Answer) (final : Locals) (ret : RetCode)
    (returns : build.call .read sock bufLen true answers = some (final, ret))
    (honest : Honest final.calls) (datagrams : List (List UInt8))
    (takes : Takes final.calls datagrams) :
    ∃ count : Nat, count = min datagrams.flatten.length bufLen.toNat ∧
      final.numActualBytes = some (count : Int) ∧
      Memory.window (stored mem final.calls) 0 count = datagrams.flatten.take bufLen.toNat ∧
      (∀ address : Int, address < 0 ∨ count ≤ address →
        stored mem final.calls address = mem address) ∧
      (ret = .ok ↔ bufLen ≤ datagrams.flatten.length) ∧
      ∀ earlier last, datagrams = earlier ++ [last] → (earlier.flatten.length : Int) < bufLen := by
  have transfer := build.isTransferLoop .read sock bufLen
  obtain ⟨count, within, windowed⟩ := transfer.counts (fun _ _ => build.forward_read _)
    (Int.le_of_lt positive) returns honest
  have asks := transfer.forall_calls returns (Call.ofCalls_asks ..)
  obtain ⟨total, bytes, fits⟩ := fills_of_takes windowed honest asks takes
  obtain ⟨window, outside⟩ := stored_of_windowed mem windowed honest
  simp only [Nat.cast_zero, sub_zero, Int.zero_add] at total bytes fits window outside
  refine ⟨moved final.calls, total, count, window.trans bytes, outside, ?_, fits⟩
  have verdict := transfer.verdict build.forward_read positive returns honest
  cases verdict with
  | complete all => exact iff_of_true rfl (by omega)
  | nothing expired uncounted =>
      refine iff_of_false (by decide) ?_
      rw [count] at uncounted
      simp only [reduceCtorEq, Option.some.injEq, false_or] at uncounted
      omega
  | short expired part known some missing =>
      refine iff_of_false (by decide) ?_
      rw [count, Option.some.injEq] at known
      omega
  | broken code failure early missing =>
      refine iff_of_false ?_ (by omega)
      rcases failure with rfl | rfl <;> decide

/-- Two datagrams of two bytes each, of which three bytes fit. -/
def twoDatagrams : List Answer :=
  [⟨⟨1, pollIn, true⟩, ⟨2, .other 0, [1, 2]⟩⟩, ⟨⟨0, 0, false⟩, ⟨0, .other 0, []⟩⟩,
    ⟨⟨1, pollIn, true⟩, ⟨1, .other 0, [3]⟩⟩]

theorem readData_datagrams_twoDatagrams : ∃ final,
    Build.select.call .read { NcSocket.ofSockfd 5 with socktype := socktypeUdp } 3 true
      twoDatagrams = some (final, .ok) ∧
    Memory.window (stored (fun _ => 0) final.calls) 0 3 = [1, 2, 3] := by
  refine ⟨_, rfl, ?_⟩
  obtain ⟨count, size, -, window, -⟩ := readData_datagrams .select
    { NcSocket.ofSockfd 5 with socktype := socktypeUdp } (fun _ => 0) 3 (by decide) twoDatagrams
    _ .ok rfl (by decide) [[1, 2], [3, 4]]
    (.cons ⟨rfl, rfl⟩ (.cons ⟨rfl, rfl⟩ .nil))
  obtain rfl : count = 3 := size
  exact window

end NetClass.Socket
