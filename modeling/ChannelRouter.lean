import ChannelRouter.Fanout
import ChannelRouter.Main
import ChannelRouter.Proofs.Director.Independence
import ChannelRouter.Proofs.RangeTable.Run
import ChannelRouter.Proofs.Router.Mirror
import ChannelRouter.Proofs.Director.History
import ChannelRouter.Proofs.Director.LeftBehind
import ChannelRouter.Proofs.Director.Departure
import ChannelRouter.Proofs.Router.Procedure
import ChannelRouter.Proofs.RangeTable.Changes
import ChannelRouter.Proofs.RangeTable.Additions
import ChannelRouter.Proofs.RangeTable.Untouched
import ChannelRouter.Proofs.Federation.Obeyable
import ChannelRouter.Proofs.Federation.Joint
import ChannelRouter.Proofs.Federation.Carriage
import ChannelRouter.Proofs.Wire.Streaming
import ChannelRouter.Proofs.Wire.RoundTrip
import ChannelRouter.Proofs.Federation.Framing
import ChannelRouter.Proofs.Federation.PostRemoves
import ChannelRouter.Proofs.Transport.Receiving
import ChannelRouter.Proofs.Federation.Calls
import ChannelRouter.Proofs.Service.Life
import ChannelRouter.Proofs.UnitTable.Transitions
import ChannelRouter.Proofs.Wire.Peeking
import ChannelRouter.Proofs.Wire.Discipline
import ChannelRouter.Proofs.Transport.Sending
import ChannelRouter.Proofs.RangeTable.Fragments
import ChannelRouter.Proofs.RangeTable.Rounds
