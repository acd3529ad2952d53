import AutoTargeting.Ipc.TransportInvariant

namespace AutoTargeting.Ipc

end AutoTargeting.Ipc
