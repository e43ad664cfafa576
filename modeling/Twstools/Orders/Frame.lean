import Twstools.Orders.Model
import Twstools.Jobs.Frame
/-!
# What leaves the orders alone

The current request, its packet, and the connection are about no order.
-/

namespace Twstools

namespace TwsDL

variable {s s' : TwsDL}

/-- **The request is over or not**, the orders are the same. -/
theorem waitPacket_orders (h : s.waitPacket = .ok s') : s'.orders = s.orders := by
  rcases waitPacket_effect h with rfl | ⟨c, o, H, out, error, lastError, quit, rfl⟩
  · rfl
  · rfl

theorem twsConnectionClosed_orders (h : s.twsConnectionClosed = .ok s') :
    s'.orders = s.orders := by
  obtain ⟨-, p, rfl⟩ := twsConnectionClosed_effect h
  rfl

/-- Connecting asks nothing about orders. -/
theorem connectTws_orders {c : Connect} (h : s.connectTws c = .ok s') :
    s'.orders = s.orders := by
  rcases connectTws_effect h with ⟨i, rfl⟩ | ⟨k, b, st, -, rfl⟩
  · rfl
  · rfl

theorem waitTwsCon_orders (h : s.waitTwsCon = .ok s') :
    ∃ r, s'.orders = { s.orders with rate_limit := r } := by
  obtain ⟨hb, r, out, ⟨st, i, rfl⟩ | ⟨-, p, rfl⟩⟩ := waitTwsCon_effect h
  · exact ⟨r, rfl⟩
  · exact ⟨r, rfl⟩

/-- What an error is told about the request or about TWS. -/
theorem Learns.orders_eq (h : s.Learns s') : s'.orders = s.orders := by
  obtain ⟨H, b, i, d, g, p, rfl⟩ := h
  rfl

end TwsDL

end Twstools
