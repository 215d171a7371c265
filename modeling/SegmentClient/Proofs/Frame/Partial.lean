import SegmentClient.Proofs.Frame.Canonical
import SegmentClient.Proofs.Wire.Incremental
import Mathlib.Data.List.Basic

namespace SegmentClient.Reply

open Wire

variable {kind : CommandKind} {bytes : List UInt8}

theorem decode_append_of_ok {reply : Reply} (h : decode kind bytes = .ok reply) (more : List UInt8) :
    decode kind (bytes ++ more) = .ok reply := by
  obtain ⟨rfl, hrange, rest, rfl⟩ := payload_of_decode h
  rw [List.append_assoc]
  exact reply.decode_payload (rest ++ more) hrange

theorem decode_append_of_final {fault : FrameFault} (h : decode kind bytes = .error fault)
    (hfinal : ∀ missing, fault ≠ .payload (.tooShort missing)) (more : List UInt8) :
    decode kind (bytes ++ more) = .error fault := by
  obtain ⟨hkind, rfl⟩ | ⟨cause, rfl⟩ := fault_of_decode h
  · exact decode_of_outbound hkind (bytes ++ more)
  · rw [decode_eq_payload_iff] at h ⊢
    refine ⟨h.1, kind.layout.incremental_decode.final h.2 ?_ more⟩
    rintro missing rfl
    exact hfinal missing rfl

theorem decode_append_of_short {missing : Nat} (h : decode kind bytes = .error (.payload (.tooShort missing))) :
    0 < missing ∧ ∀ more, more.length < missing →
      decode kind (bytes ++ more) = .error (.payload (.tooShort (missing - more.length))) := by
  rw [decode_eq_payload_iff] at h
  obtain ⟨hpos, hmore⟩ := kind.layout.incremental_decode.short h.2
  refine ⟨hpos, fun more hlt => ?_⟩
  rw [decode_eq_payload_iff]
  exact ⟨h.1, hmore more hlt⟩

theorem decode_front {reply : Reply} (hrange : reply.InRange) {front rest : List UInt8}
    (hpayload : front ++ rest = reply.payload) (hrest : rest ≠ []) :
    ∃ missing, decode reply.kind front = .error (.payload (.tooShort missing)) ∧ missing ≤ rest.length := by
  have hwhole : decode reply.kind (front ++ rest) = .ok reply :=
    hpayload ▸ decode_of_front hrange List.prefix_rfl
  cases hfront : decode reply.kind front with
  | ok other =>
      have hsame := decode_append_of_ok hfront rest
      rw [hwhole] at hsame
      cases hsame
      obtain ⟨_, _, more, hmore⟩ := payload_of_decode hfront
      have hlength := congrArg List.length hpayload
      rw [hmore, List.length_append, List.length_append] at hlength
      exact absurd (List.length_eq_zero_iff.mp (by omega)) hrest
  | error fault =>
      by_cases hshort : ∃ missing, fault = .payload (.tooShort missing)
      · obtain ⟨missing, rfl⟩ := hshort
        refine ⟨missing, rfl, Nat.le_of_not_lt fun hlt => ?_⟩
        have hstill := (decode_append_of_short hfront).2 rest hlt
        rw [hwhole] at hstill
        cases hstill
      · have hstill := decode_append_of_final hfront (fun missing h => hshort ⟨missing, h⟩) rest
        rw [hwhole] at hstill
        cases hstill

/-- What decoding comes to when more bytes come in behind a payload: a reply, a bad text and a kind
that only clients send stay, and missing bytes are counted down until the field that lacks them is
whole. Of a reply's own payload every front that is not all of it lacks bytes, and never more than
there are behind it. -/
theorem decode_append (kind : CommandKind) (bytes : List UInt8) :
    (∀ reply, decode kind bytes = .ok reply → ∀ more, decode kind (bytes ++ more) = .ok reply) ∧
    (∀ fault, decode kind bytes = .error (.payload (.badText fault)) →
      ∀ more, decode kind (bytes ++ more) = .error (.payload (.badText fault))) ∧
    (∀ other, decode kind bytes = .error (.unexpectedCommand other) →
      ∀ more, decode kind (bytes ++ more) = .error (.unexpectedCommand other)) ∧
    (∀ missing, decode kind bytes = .error (.payload (.tooShort missing)) → 0 < missing ∧
      ∀ more, more.length < missing →
        decode kind (bytes ++ more) = .error (.payload (.tooShort (missing - more.length)))) ∧
    (∀ fault, decode kind bytes = .error fault → fault.aborts = true ∨ fault = .unexpectedCommand kind ∨
      (∃ cause, fault = .payload (.badText cause)) ∨ ∃ missing, fault = .payload (.tooShort missing)) ∧
    (∀ reply : Reply, reply.InRange → ∀ front rest, front ++ rest = reply.payload → rest ≠ [] →
      ∃ missing, decode reply.kind front = .error (.payload (.tooShort missing)) ∧
        0 < missing ∧ missing ≤ rest.length) := by
  refine ⟨fun reply => decode_append_of_ok, ?_, ?_, fun missing => decode_append_of_short, ?_, ?_⟩
  · exact fun fault h => decode_append_of_final h nofun
  · exact fun other h => decode_append_of_final h nofun
  · intro fault h
    obtain ⟨_, rfl⟩ | ⟨missing | cause | _, rfl⟩ := fault_of_decode h
    · exact Or.inr (Or.inl rfl)
    · exact Or.inr (Or.inr (Or.inr ⟨missing, rfl⟩))
    · exact Or.inr (Or.inr (Or.inl ⟨cause, rfl⟩))
    · exact Or.inl rfl
  · intro reply hrange front rest hpayload hrest
    obtain ⟨missing, hfront, hle⟩ := decode_front hrange hpayload hrest
    exact ⟨missing, hfront, (decode_append_of_short hfront).1, hle⟩

theorem decode_append_cut :
    let reply := Reply.wrongHost ⟨-2, "ab", "", "é"⟩
    let broken : List UInt8 := [0, 0, 0, 0, 0, 0, 0, 1] ++ [0, 0, 0, 0, 0, 0, 0, 2, 0xC3, 0x61] ++ [0, 0]
    let fault : Utf8.Fault := ⟨0, some 1⟩
    reply.InRange ∧ decode .wrongHost (reply.payload.take 20) = .error (.payload (.tooShort 6)) ∧
    decode .wrongHost (reply.payload.take 23) = .error (.payload (.tooShort 3)) ∧
    (∃ missing, decode .wrongHost (reply.payload.take 35) = .error (.payload (.tooShort missing)) ∧
      0 < missing ∧ missing ≤ 1) ∧
    decode .wrongHost (reply.payload ++ [7]) = .ok reply ∧
    (∀ more, decode .wrongHost (broken ++ more) = .error (.payload (.badText fault))) ∧
    decode .setupAppend (broken ++ [1]) = .error (.unexpectedCommand .setupAppend) := by
  intro reply broken fault
  have hrange : reply.InRange := Layout.inRange_of_length _ _ (by decide +kernel)
  have hshort : decode .wrongHost (reply.payload.take 20) = .error (.payload (.tooShort 6)) := by decide +kernel
  have hbad : decode .wrongHost broken = .error (.payload (.badText fault)) := by decide +kernel
  have hnext := ((decode_append .wrongHost (reply.payload.take 20)).2.2.2.1 6 hshort).2
    ((reply.payload.drop 20).take 3) (by decide +kernel)
  have hcut := (decode_append .wrongHost []).2.2.2.2.2 reply hrange (reply.payload.take 35)
    (reply.payload.drop 35) (List.take_append_drop 35 reply.payload) (by decide +kernel)
  have hwhole : decode .wrongHost reply.payload = .ok reply := by decide +kernel
  exact ⟨hrange, hshort, hnext, hcut, (decode_append .wrongHost reply.payload).1 reply hwhole [7],
    (decode_append .wrongHost broken).2.1 fault hbad,
    (decode_append .setupAppend broken).2.2.1 .setupAppend rfl [1]⟩

end SegmentClient.Reply
