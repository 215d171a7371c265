import SegmentClient.Frame

namespace SegmentClient.Reply

theorem decode_of_front {reply : Reply} {bytes : List UInt8} (hrange : reply.InRange)
    (h : reply.payload <+: bytes) : decode reply.kind bytes = .ok reply := by
  obtain ⟨rest, rfl⟩ := h
  exact reply.decode_payload rest hrange

theorem eq_of_payload_front {reply other : Reply} (hkind : other.kind = reply.kind)
    (hother : other.InRange) (hreply : reply.InRange) (h : other.payload <+: reply.payload) :
    other = reply := by
  have hshort := decode_of_front hother h
  have hwhole := decode_of_front hreply List.prefix_rfl
  rw [hkind, hwhole] at hshort
  exact (Except.ok.inj hshort).symm

theorem decode_of_outbound {kind : CommandKind} (h : kind.isReply = false) (bytes : List UInt8) :
    decode kind bytes = .error (.unexpectedCommand kind) := by
  have hbuild := build?_isSome kind
  rw [h, Option.isSome_eq_false_iff, Option.isNone_iff_eq_none] at hbuild
  simp only [decode, hbuild]

theorem decode_eq_payload_iff (kind : CommandKind) (bytes : List UInt8) (fault : Wire.PayloadFault) :
    decode kind bytes = .error (.payload fault) ↔
      kind.isReply = true ∧ kind.layout.decode bytes = .error fault := by
  rw [← build?_isSome, decode]
  rcases build? kind with _ | build
  · simp
  · rcases kind.layout.decode bytes with other | ⟨values, rest⟩ <;> simp

theorem fault_of_decode {kind : CommandKind} {bytes : List UInt8} {fault : FrameFault}
    (h : decode kind bytes = .error fault) :
    (kind.isReply = false ∧ fault = .unexpectedCommand kind) ∨ ∃ cause, fault = .payload cause := by
  rw [← build?_isSome]
  rw [decode] at h
  split at h
  · rename_i hbuild
    exact Or.inl ⟨by rw [hbuild, Option.isSome_none], (Except.error.inj h).symm⟩
  · split at h
    · exact Or.inr ⟨_, (Except.error.inj h).symm⟩
    · cases h

/-- Decoding is the inverse of writing, but for bytes behind the last field: a payload of a given kind
decodes to a reply if and only if it begins with what is written for that reply. Hence replies of one
kind differ within the shorter payload, and the kinds that only clients send are refused whatever the
payload. -/
theorem decode_iff_payload_front (kind : CommandKind) (bytes : List UInt8) (reply : Reply) :
    (decode kind bytes = .ok reply ↔ kind = reply.kind ∧ reply.InRange ∧ reply.payload <+: bytes) ∧
    (decode kind bytes = .ok reply → bytes.take reply.payload.length = reply.payload ∧
      decode kind (bytes.take reply.payload.length) = .ok reply) ∧
    (∀ other : Reply, other.kind = reply.kind → other.InRange → reply.InRange →
      other.payload <+: reply.payload → other = reply) ∧
    (kind = .setupAppend ∨ kind = .appendBlockEnd → decode kind bytes = .error (.unexpectedCommand kind)) := by
  have hread : decode kind bytes = .ok reply →
      kind = reply.kind ∧ reply.InRange ∧ reply.payload <+: bytes := by
    intro h
    obtain ⟨hkind, hrange, rest, hbytes⟩ := payload_of_decode h
    exact ⟨hkind, hrange, rest, hbytes.symm⟩
  refine ⟨⟨hread, ?_⟩, ?_, fun other => eq_of_payload_front, ?_⟩
  · rintro ⟨rfl, hrange, hprefix⟩
    exact decode_of_front hrange hprefix
  · intro h
    obtain ⟨rfl, hrange, hprefix⟩ := hread h
    rw [← List.prefix_iff_eq_take.mp hprefix]
    exact ⟨rfl, decode_of_front hrange List.prefix_rfl⟩
  · intro h
    apply decode_of_outbound
    obtain rfl | rfl := h <;> rfl

theorem decode_iff_payload_front_trailing :
    let reply := Reply.wrongHost ⟨-2, "ab", "", "é"⟩
    let bytes : List UInt8 :=
      [0xFF, 0xFF, 0xFF, 0xFF, 0xFF, 0xFF, 0xFF, 0xFE] ++ [0, 0, 0, 0, 0, 0, 0, 2, 0x61, 0x62] ++
        [0, 0, 0, 0, 0, 0, 0, 0] ++ [0, 0, 0, 0, 0, 0, 0, 2, 0xC3, 0xA9] ++ [7]
    reply.InRange ∧ reply.payload <+: bytes ∧ decode .wrongHost bytes = .ok reply ∧
    decode .setupAppend bytes = .error (.unexpectedCommand .setupAppend) := by
  intro reply bytes
  have hrange : reply.InRange := Wire.Layout.inRange_of_length _ _ (by decide +kernel)
  have hprefix : reply.payload <+: bytes := by decide +kernel
  exact ⟨hrange, hprefix, (decode_iff_payload_front .wrongHost bytes reply).1.mpr ⟨rfl, hrange, hprefix⟩,
    (decode_iff_payload_front .setupAppend bytes reply).2.2.2 (Or.inl rfl)⟩

end SegmentClient.Reply
