import Switchboard.Proofs.Text.Escapes
import Switchboard.Session.Options

/-!
# What the text of options discloses

Options are shown with their secrets redacted, and otherwise so that nothing is lost.

**What is shown** (`shown`). The texts that stand in the fields: of a secret, whether there is one.

**Main statement** (`describe_eq_iff`). Two options look the same exactly if what is shown of them
is the same.
-/

namespace Switchboard.Options

/-- The texts that stand in the fields of options, by the names of the fields. -/
def shown (o : Options) : List (String × String) :=
  [("auth_server", o.authServer), ("username", o.username), ("password", redact o.password),
    ("token", redact o.token), ("server_code", o.serverCode),
    ("server_password", redact o.serverPassword)]

theorem describe_eq (o : Options) :
    o.describe = Text.record "ConnectOptions" (Text.quotedFields o.shown) := rfl

theorem redact_eq_iff {s t : String} : redact s = redact t ↔ (s = "" ↔ t = "") := by
  unfold redact
  by_cases hs : s = "" <;> by_cases ht : t = "" <;> simp [hs, ht]

/-- **The text of options gives away all that is not secret, and of the secrets only whether there
are any.**

Two options are shown alike if and only if they have the same authentication server, user name and
server code, and agree on which of password, token and server password are empty. So what a secret
says never changes the text, and no choice of the other fields makes two different ones look alike. -/
theorem describe_eq_iff (o o' : Options) :
    o.describe = o'.describe ↔
      o.authServer = o'.authServer ∧ o.username = o'.username ∧ o.serverCode = o'.serverCode ∧
        (o.password = "" ↔ o'.password = "") ∧ (o.token = "" ↔ o'.token = "") ∧
        (o.serverPassword = "" ↔ o'.serverPassword = "") := by
  have hshown : o.describe = o'.describe ↔ o.shown = o'.shown := by
    rw [describe_eq, describe_eq]
    exact ⟨fun h => Text.record_quoted_inj rfl h, fun h => by rw [h]⟩
  rw [hshown]
  simp only [shown, List.cons.injEq, Prod.mk.injEq, true_and, and_true, redact_eq_iff]
  constructor
  · rintro ⟨hauth, hname, hpassword, htoken, hcode, hserver⟩
    exact ⟨hauth, hname, hcode, hpassword, htoken, hserver⟩
  · rintro ⟨hauth, hname, hcode, hpassword, htoken, hserver⟩
    exact ⟨hauth, hname, hpassword, htoken, hcode, hserver⟩

end Switchboard.Options
