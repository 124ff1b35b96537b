import DpdkWrapper.Arp.Exchange
import DpdkWrapper.Ports.Exclusive
import DpdkWrapper.Ports.Teardown
import DpdkWrapper.Tcp.Answered
import DpdkWrapper.Tcp.Corruption
import DpdkWrapper.Tcp.FinAcks
import DpdkWrapper.Tcp.FlowControl
import DpdkWrapper.Tcp.FrameBounds
import DpdkWrapper.Tcp.HonestAcks
import DpdkWrapper.Tcp.Reduction
import DpdkWrapper.Tcp.Segmentation
import DpdkWrapper.Tcp.WindowUpdates
import DpdkWrapper.Tcp.Wraparound
import DpdkWrapper.Echo.Stack
import DpdkWrapper.Mbufs.Leaks
import DpdkWrapper.Mbufs.Moves
