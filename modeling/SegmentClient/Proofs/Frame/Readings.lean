import SegmentClient.Frame

namespace SegmentClient

def Reading.aborts (reading : Reading) : Bool :=
  match reading.outcome with
  | .error fault => fault.aborts
  | .ok _ => false

namespace Source

theorem readings_eq_cons {source : Source} {reading : Reading} {after : List Reading}
    (h : source.readings = reading :: after) :
    source.read = reading ∧ ((∃ fault, reading.outcome = .error fault) ∧ after = [] ∨
      (∃ reply, reading.outcome = .ok reply) ∧ after = reading.source.readings) := by
  rcases hreceive : Reply.receive source with ⟨fault | reply, rest⟩
  · rw [readings_of_error hreceive] at h
    obtain ⟨hread, hafter⟩ := List.cons.inj h
    refine ⟨hread, Or.inl ⟨⟨fault, ?_⟩, hafter.symm⟩⟩
    rw [← hread, read, hreceive]
  · rw [readings_of_ok hreceive] at h
    obtain ⟨hread, hafter⟩ := List.cons.inj h
    refine ⟨hread, Or.inr ⟨⟨reply, ?_⟩, ?_⟩⟩
    · rw [← hread, read, hreceive]
    · rw [← hread, ← hafter, read, hreceive]

theorem readings_ne_nil (source : Source) : source.readings ≠ [] := by
  rcases hreceive : Reply.receive source with ⟨fault | reply, rest⟩
  · rw [readings_of_error hreceive]
    exact List.cons_ne_nil _ _
  · rw [readings_of_ok hreceive]
    exact List.cons_ne_nil _ _

theorem readings_eq_concat (source : Source) :
    ∃ before last fault, source.readings = before ++ [last] ∧
      (∀ reading ∈ before, ∃ reply, reading.outcome = .ok reply) ∧ last.outcome = .error fault := by
  induction hreadings : source.readings generalizing source with
  | nil => exact absurd hreadings source.readings_ne_nil
  | cons first after ih =>
      obtain ⟨_, ⟨⟨fault, hfault⟩, rfl⟩ | ⟨hfirst, hafter⟩⟩ := readings_eq_cons hreadings
      · exact ⟨[], first, fault, rfl, fun _ h => absurd h List.not_mem_nil, hfault⟩
      · obtain ⟨before, last, fault, hbefore, hok, hfault⟩ := ih first.source hafter.symm
        refine ⟨first :: before, last, fault, by rw [hbefore, List.cons_append], ?_, hfault⟩
        rintro reading (_ | ⟨_, hmem⟩)
        · exact hfirst
        · exact hok reading hmem

theorem readings_eq_readTimes (count : Nat) {source : Source}
    (h : (source.readTimes (count + 1)).map (·.outcome.isOk) = List.replicate count true ++ [false]) :
    source.readings = source.readTimes (count + 1) := by
  induction count generalizing source with
  | zero =>
      rcases hreceive : Reply.receive source with ⟨fault | reply, rest⟩
      · exact readings_of_error hreceive
      · simp [readTimes, read, hreceive, Except.isOk, Except.toBool] at h
  | succ count ih =>
      rw [readTimes, List.map_cons, List.replicate_succ, List.cons_append] at h
      obtain ⟨hfirst, hrest⟩ := List.cons.inj h
      rcases hreceive : Reply.receive source with ⟨fault | reply, rest⟩
      · simp [read, hreceive, Except.isOk, Except.toBool] at hfirst
      · have hread : source.read.source = rest := by rw [read, hreceive]
        rw [readings_of_ok hreceive, readTimes, hread, ih (hread ▸ hrest)]

end Source

namespace Source

theorem fetch_of_noStop (items : List Item) (due : Nat) (buffer : Array UInt8) (stops : Nat)
    (h : .stop ∉ items) :
    (fetch items due buffer stops).stops = stops ∧ .stop ∉ (fetch items due buffer stops).items := by
  fun_induction fetch items due buffer stops with
  | case1 => exact ⟨rfl, h⟩
  | case2 => exact ⟨rfl, h⟩
  | case3 => exact absurd (List.mem_cons_self ..) h
  | case4 items due buffer stops ih => exact ih (List.not_mem_of_not_mem_cons h)
  | case5 => exact ⟨rfl, List.not_mem_of_not_mem_cons h⟩
  | case6 bytes items due buffer stops front position hdrop ih => exact ih (List.not_mem_of_not_mem_cons h)
  | case7 =>
      refine ⟨rfl, ?_⟩
      rw [List.mem_cons, not_or]
      exact ⟨by simp, List.not_mem_of_not_mem_cons h⟩

/-- Nobody asks to stop while the items of the source are read. -/
def Quiet (source : Source) : Prop := .stop ∉ source.items

theorem fill_of_quiet (count : Nat) {source : Source} (h : source.Quiet) :
    (source.fill count).2.stops = source.stops ∧ (source.fill count).2.Quiet := by
  obtain ⟨hstops, hitems⟩ := fetch_of_noStop source.items _ (resize count (source.buffer.take 0)) 0 h
  simp only [fill_eq]
  exact ⟨by rw [hstops, Nat.add_zero], hitems⟩

end Source

theorem Reply.receive_of_quiet {source : Source} (h : source.Quiet) :
    (receive source).2.stops = source.stops ∧ (receive source).2.Quiet := by
  have hheader := Source.fill_of_quiet headerSize h
  rcases hfill : source.fill headerSize with ⟨fault | header, middle⟩
  · simpa only [receive, hfill] using hheader
  · rw [hfill] at hheader
    rcases hread : Frame.readHeader header with fault | ⟨kind, length⟩
    · simpa only [receive, hfill, hread] using hheader
    · have hpayload := Source.fill_of_quiet length hheader.2
      rw [hheader.1] at hpayload
      rcases hsecond : middle.fill length with ⟨fault | payload, rest⟩ <;>
        simpa only [receive, hfill, hread, hsecond] using hpayload

theorem Source.stopped_readings {source : Source} (h : source.Quiet) :
    ∀ reading ∈ source.readings, reading.stopped = false := by
  induction hreadings : source.readings generalizing source with
  | nil => exact absurd hreadings source.readings_ne_nil
  | cons first after ih =>
      obtain ⟨hread, hafter⟩ := readings_eq_cons hreadings
      obtain ⟨hstops, hquiet⟩ := Reply.receive_of_quiet h
      have hfirst : first.stopped = false := by
        rw [← hread, read]
        simp [hstops]
      rintro reading (_ | ⟨_, hmem⟩)
      · exact hfirst
      · obtain ⟨_, rfl⟩ | ⟨_, hnext⟩ := hafter
        · cases hmem
        · refine ih ?_ hnext.symm reading hmem
          rw [← hread, read]
          exact hquiet

end SegmentClient
