import WatchGate.Http
import WatchGate.Proofs.Utf8
import WatchGate.Rights

/-!
# WatchGate — what a response says

A response of the gateway's own is told by three things: its status, the one header
that says what its body is, and the bytes of its body (`Response.Says`). Nothing is left
open by these, so that a check's refusal and a caller's rights are pinned down as they
are sent.

Main results:

* `says_text` — a response of plain text says its words.
* `summarizes_json` — the summary of rights is an object of five members, in their order.
-/

namespace WatchGate

theorem Rights.truth_eq_toString (b : Bool) : Rights.truth b = toString b := by
  cases b <;> rfl

namespace Http.Response

variable {x : Response} {status : Nat} {contentType words : String}

/-- A response has a status and the bytes of some words, and says what these are. -/
structure Says (x : Response) (status : Nat) (contentType words : String) : Prop where
  status : x.status = status
  headers : x.headers.toList = [⟨"content-type", contentType.toUTF8.data.toList⟩]
  body : x.body = words.toUTF8.data.toList

/-- A response tells rights as a document. -/
def Summarizes (x : Response) (rights : Rights) : Prop :=
  x.Says 200 "application/json"
    ("\x7b\"get\":" ++ toString rights.get ++ ",\"put\":" ++ toString rights.put ++
      ",\"delete\":" ++ toString rights.delete ++ ",\"logs\":" ++ toString rights.logs ++
      ",\"exec\":" ++ toString rights.exec ++ "\x7d")

theorem says_text (status : Nat) (words : String) :
    (text status words).Says status "text/plain; charset=utf-8" words where
  status := rfl
  headers := by
    have hbytes : Bytes.ofAscii "text/plain; charset=utf-8" =
        "text/plain; charset=utf-8".toUTF8.data.toList := by decide +kernel
    rw [← hbytes]
    rfl
  body := Utf8.ofString_eq words

theorem says_json (words : String) : (json words).Says 200 "application/json" words where
  status := rfl
  headers := by
    have hbytes : Bytes.ofAscii "application/json" = "application/json".toUTF8.data.toList := by
      decide +kernel
    rw [← hbytes]
    rfl
  body := Utf8.ofString_eq words

/-- There is one response that says some words. -/
theorem Says.eq_text (h : x.Says status "text/plain; charset=utf-8" words) :
    x = text status words := by
  obtain ⟨s, ⟨hs⟩, b⟩ := x
  have ht := says_text status words
  obtain ⟨hstatus, hheaders, hbody⟩ := h
  rw [← ht.status] at hstatus
  rw [← ht.headers] at hheaders
  rw [← ht.body] at hbody
  dsimp only at hstatus hheaders hbody
  rw [hstatus, hheaders, hbody]

theorem summarizes_json (rights : Rights) : (json rights.text).Summarizes rights := by
  unfold Summarizes
  simp only [← Rights.truth_eq_toString]
  exact says_json rights.text

end Http.Response

end WatchGate
